/-!
# Blank characters

The characters with the Unicode property White_Space, and the trimming of a text at both ends.
-/

namespace CallTrace

def isBlank (c : Char) : Bool :=
  let n := c.toNat
  (9 ≤ n && n ≤ 13) || n == 0x20 || n == 0x85 || n == 0xA0 || n == 0x1680 ||
    (0x2000 ≤ n && n ≤ 0x200A) || n == 0x2028 || n == 0x2029 || n == 0x202F || n == 0x205F ||
    n == 0x3000

def trimEnd (cs : List Char) : List Char := (cs.reverse.dropWhile isBlank).reverse

def trim (cs : List Char) : List Char := trimEnd (cs.dropWhile isBlank)

theorem dropWhile_append_of_all {p : Char → Bool} {ws : List Char} (h : ∀ c ∈ ws, p c = true)
    (cs : List Char) : (ws ++ cs).dropWhile p = cs.dropWhile p := by
  induction ws with
  | nil => rfl
  | cons w ws ih =>
    rw [List.cons_append, List.dropWhile_cons_of_pos (h w (by simp))]
    exact ih fun c hc => h c (by simp [hc])

-- A text with no blank character is left alone.
theorem trim_of_none {cs : List Char} (h : ∀ c ∈ cs, isBlank c = false) : trim cs = cs := by
  have key : ∀ l : List Char, (∀ c ∈ l, isBlank c = false) → l.dropWhile isBlank = l := by
    intro l hl
    cases l with
    | nil => rfl
    | cons c l => rw [List.dropWhile_cons_of_neg]; simp [hl c (by simp)]
  unfold trim trimEnd
  rw [key cs h, key cs.reverse (fun c hc => h c (by simpa using hc)), List.reverse_reverse]

-- Blank characters around a text without blanks do not count.
theorem trim_append {before cs after : List Char} (hb : ∀ c ∈ before, isBlank c = true)
    (h : ∀ c ∈ cs, isBlank c = false) (ha : ∀ c ∈ after, isBlank c = true) :
    trim (before ++ cs ++ after) = cs := by
  unfold trim
  rw [List.append_assoc, dropWhile_append_of_all hb]
  cases cs with
  | nil =>
    have : after.dropWhile isBlank = [] := by
      have := dropWhile_append_of_all ha []
      simpa using this
    simp [this, trimEnd]
  | cons c cs =>
    rw [List.cons_append, List.dropWhile_cons_of_neg (by simp [h c (by simp)])]
    unfold trimEnd
    rw [← List.cons_append, List.reverse_append,
      dropWhile_append_of_all (fun c hc => ha c (by simpa using hc))]
    have := trim_of_none h
    unfold trim trimEnd at this
    rwa [List.dropWhile_cons_of_neg (by simp [h c (by simp)])] at this

end CallTrace
