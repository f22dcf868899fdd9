import CallTrace.Recorder
import Mathlib.Algebra.GroupWithZero.Nat
import Mathlib.Data.List.Basic
import Mathlib.Data.List.Induction
import Mathlib.Data.List.TakeWhile

/-!
# What a recorder keeps

Spans are started on a recorder, and then tagged, logged to and finished in any order, any number of
times, also when all has been forgotten in between.  The record of a span is a matter of what is
done to it after its start, and what the recorder counts against its users is the sum of what each
span has been used too often.
-/

namespace CallTrace

-- A sum over a list in which at most one member changes.
theorem sum_mapIdx_of_one {α : Type} (g δ : α → Nat) {f : Nat → α → α} {n : Nat}
    (hat : ∀ a, g (f n a) = g a + δ a) (helse : ∀ i a, i ≠ n → g (f i a) = g a) (l : List α) :
    ((l.mapIdx f).map g).sum = (l.map g).sum + (l[n]?.map δ).getD 0 := by
  induction l generalizing n f with
  | nil => rfl
  | cons a l ih =>
    rw [List.mapIdx_cons, List.map_cons, List.map_cons, List.sum_cons, List.sum_cons]
    cases n with
    | zero =>
      have hrest : (l.mapIdx fun i => f (i + 1)).map g = l.map g := by
        apply List.ext_getElem
        · simp
        · simp [helse]
      rw [hrest, hat, List.getElem?_cons_zero, Option.map_some, Option.getD_some]
      omega
    | succ n =>
      have hrest := ih (f := fun i => f (i + 1)) hat fun i b hi => helse (i + 1) b (by omega)
      rw [hrest, helse 0 a (by omega), List.getElem?_cons_succ]
      omega

-- Dropped from a numbered list are those with the least numbers.
theorem drop_zipIdx {α : Type} (l : List α) (k n : Nat) :
    (l.zipIdx n).drop k = (l.zipIdx n).filter fun e => n + k ≤ e.2 := by
  induction l generalizing k n with
  | nil => simp
  | cons a l ih =>
    cases k with
    | zero =>
      have hall : ∀ e ∈ (a :: l).zipIdx n, decide (n ≤ e.2) = true := by
        intro e he
        simpa using List.le_snd_of_mem_zipIdx he
      exact (List.filter_eq_self.2 hall).symm
    | succ k =>
      rw [List.zipIdx_cons, List.drop_succ_cons, List.filter_cons_of_neg (by simp), ih]
      simp only [Nat.add_assoc, Nat.add_comm 1]

/-- A use of a recorder. -/
inductive RecorderOp
  | start (options : SpanOptions)
  | span (number : Nat) (op : SpanOp)
  | reset
deriving DecidableEq, Repr

/-! ## Lives -/

namespace SpanOp

def tag? : SpanOp → Option (String × TagValue)
  | .tag key value => some (key, value)
  | .log _ | .finish => none

def log? : SpanOp → Option Fields
  | .log fields => some fields
  | .tag .. | .finish => none

-- What an operation counts as when it comes to a span that is finished, or is not.
def rejected (op : SpanOp) (finished : Bool) : Nat := if finished ∧ op = .finish then 1 else 0

def late (op : SpanOp) (finished : Bool) : Nat := if finished ∧ op ≠ .finish then 1 else 0

end SpanOp

/-- What becomes of a span: what it starts with, and what is done after its start. -/
structure SpanLife where
  options : SpanOptions
  done : List SpanOp := []
  -- Whether the recorder forgets it.
  forgotten : Bool := false

namespace RecorderOp

-- What a use does to the span of this number.
def on? (number : Nat) : RecorderOp → Option SpanOp
  | .span n op => if n = number then some op else none
  | .start _ | .reset => none

def options? : RecorderOp → Option SpanOptions
  | .start options => some options
  | .span .. | .reset => none

def isReset : RecorderOp → Bool
  | .reset => true
  | .start _ | .span .. => false

/-- The spans that are started, in order, when so many have been started before. -/
def lives (number : Nat) : List RecorderOp → List SpanLife
  | [] => []
  | .start options :: later =>
    { options, done := later.filterMap (on? number), forgotten := later.any isReset } ::
      lives (number + 1) later
  | .span .. :: later | .reset :: later => lives number later

end RecorderOp

namespace SpanLife

def finishes (life : SpanLife) : Nat := life.done.count .finish

-- What is done before the first finish.
def early (life : SpanLife) : List SpanOp := life.done.takeWhile (· != .finish)

/-- The tags of the span as they are written, those of the start first. -/
def written (life : SpanLife) : List (String × TagValue) :=
  life.options.tags ++ life.early.filterMap SpanOp.tag?

def lastWritten (life : SpanLife) (key : String) : Option TagValue :=
  (life.written.reverse.find? (·.1 == key)).map (·.2)

def logged (life : SpanLife) : List Fields := life.early.filterMap SpanOp.log?

/-- How often the span is finished again. -/
def rejected (life : SpanLife) : Nat := life.finishes - 1

/-- How often the span is tagged or logged to after its first finish. -/
def late (life : SpanLife) : Nat :=
  (life.done.dropWhile (· != .finish)).countP (· != .finish)

/-- The record of the span of this number. -/
def record (ids : IdSupply) (number : Nat) (life : SpanLife) : SpanRecord :=
  { name := life.options.name
    context := SpanContext.start life.options.parent ids number
    tags := life.written.foldl (fun tags t => setTag t.1 t.2 tags) []
    logs := life.logged
    finishCount := life.finishes }

-- The life of the span of this number with one more use of the recorder.
def add (number : Nat) (use : RecorderOp) (life : SpanLife) : SpanLife :=
  { life with
    done := life.done ++ (use.on? number).toList
    forgotten := life.forgotten || use.isReset }

/-! ### One more operation -/

variable {life life' : SpanLife}

theorem forall_ne_finish_iff :
    (∀ op ∈ life.done, (op != SpanOp.finish) = true) ↔ life.finishes = 0 := by
  unfold finishes
  rw [List.count_eq_zero]
  constructor
  · intro h hmem
    simpa using h _ hmem
  · intro h op hop
    have hne : op ≠ .finish := fun heq => h (heq ▸ hop)
    simpa using hne

theorem early_eq_done_iff : life.early = life.done ↔ life.finishes = 0 :=
  List.takeWhile_eq_self_iff.trans forall_ne_finish_iff

theorem early_of_done_concat {op : SpanOp} (hdone : life'.done = life.done ++ [op]) :
    life'.early =
      if life.finishes = 0 then life.early ++ [op].takeWhile (· != .finish) else life.early := by
  have hlength : life.early.length = life.done.length ↔ life.finishes = 0 := by
    rw [← early_eq_done_iff]
    exact ⟨(List.takeWhile_prefix _).eq_of_length, congrArg List.length⟩
  conv_lhs => unfold early
  rw [hdone, List.takeWhile_append]
  change (if life.early.length = life.done.length then _ else life.early) = _
  by_cases h : life.finishes = 0
  · rw [if_pos (hlength.2 h), if_pos h, early_eq_done_iff.2 h]
  · rw [if_neg (mt hlength.1 h), if_neg h]

theorem late_of_done_concat {op : SpanOp} (hdone : life'.done = life.done ++ [op]) :
    life'.late = life.late + op.late (0 < life.finishes) := by
  unfold late SpanOp.late
  rw [hdone, List.dropWhile_append]
  by_cases h : life.finishes = 0
  · rw [List.dropWhile_eq_nil_iff.2 (forall_ne_finish_iff.2 h)]
    cases op <;> simp [h]
  · have hne : life.done.dropWhile (· != .finish) ≠ [] :=
      fun hnil => h (forall_ne_finish_iff.1 (List.dropWhile_eq_nil_iff.1 hnil))
    rw [if_neg (by simpa using hne), List.countP_append]
    have hpos : 0 < life.finishes := by omega
    cases op <;> simp [hpos]

theorem finishes_of_done_concat {op : SpanOp} (hdone : life'.done = life.done ++ [op]) :
    life'.finishes = life.finishes + if op = .finish then 1 else 0 := by
  unfold finishes
  rw [hdone, List.count_append, List.count_singleton]
  simp

theorem rejected_of_done_concat {op : SpanOp} (hdone : life'.done = life.done ++ [op]) :
    life'.rejected = life.rejected + op.rejected (0 < life.finishes) := by
  unfold rejected SpanOp.rejected
  rw [finishes_of_done_concat hdone]
  by_cases hop : op = .finish
  · simp only [hop, and_true, if_true, decide_eq_true_eq]
    split <;> omega
  · simp only [hop, and_false, if_false]
    omega

-- An operation is early if no finish came before it and it is none itself.
theorem filterMap_early_of_done_concat {β : Type} {g : SpanOp → Option β} (hg : g .finish = none)
    {op : SpanOp} (hdone : life'.done = life.done ++ [op]) :
    life'.early.filterMap g =
      life.early.filterMap g ++ if life.finishes = 0 then (g op).toList else [] := by
  rw [early_of_done_concat hdone]
  by_cases h : life.finishes = 0
  · rw [if_pos h, if_pos h, List.filterMap_append]
    cases op with
    | finish => simp [hg]
    | tag key value => cases hop : g (.tag key value) <;> simp [hop]
    | log fields => cases hop : g (.log fields) <;> simp [hop]
  · rw [if_neg h, if_neg h, List.append_nil]

theorem record_of_done_concat {op : SpanOp} (hdone : life'.done = life.done ++ [op])
    (hoptions : life'.options = life.options) (ids : IdSupply) (number : Nat) :
    life'.record ids number = (life.record ids number).apply op := by
  have hfinished : (life.record ids number).finished = decide (0 < life.finishes) := rfl
  unfold SpanRecord.apply
  rw [hfinished]
  unfold record written logged
  rw [hoptions, filterMap_early_of_done_concat rfl hdone, filterMap_early_of_done_concat rfl hdone,
    finishes_of_done_concat hdone]
  by_cases h : life.finishes = 0
  · cases op <;> simp [h, SpanOp.tag?, SpanOp.log?]
  · have hpos : 0 < life.finishes := by omega
    cases op <;> simp [h, hpos]

theorem finished_record (ids : IdSupply) (number : Nat) (life : SpanLife) :
    (life.record ids number).finished = true ↔ .finish ∈ life.done :=
  decide_eq_true_iff.trans List.count_pos_iff

-- The tag under a key is the one that was set last.
theorem tag?_record (ids : IdSupply) (number : Nat) (life : SpanLife) (key : String) :
    (life.record ids number).tag? key = life.lastWritten key := by
  change getTag? (life.written.foldl _ []) key = getTag? life.written.reverse key
  induction life.written using List.reverseRecOn with
  | nil => rfl
  | append_singleton written t ih =>
    rw [List.foldl_append, List.foldl_cons, List.foldl_nil, getTag?_setTag, ih,
      List.reverse_append, List.reverse_singleton, List.singleton_append]
    unfold getTag?
    by_cases h : t.1 = key
    · simp [h]
    · rw [if_neg h, List.find?_cons_of_neg (by simpa using h)]

end SpanLife

/-! ## Uses of a recorder -/

theorem RecorderOp.lives_concat (number : Nat) (uses : List RecorderOp) (use : RecorderOp) :
    lives number (uses ++ [use]) =
      (lives number uses).mapIdx (fun i => SpanLife.add (number + i) use) ++
        use.options?.toList.map fun options => ({ options } : SpanLife) := by
  induction uses generalizing number with
  | nil => cases use <;> rfl
  | cons first uses ih =>
    cases first with
    | start options =>
      have hnumber (i : Nat) : number + 1 + i = number + (i + 1) := by omega
      have hon : [use].filterMap (on? number) = (use.on? number).toList := by
        cases h : use.on? number <;> simp [h]
      have hreset : [use].any isReset = use.isReset := by simp
      rw [List.cons_append, lives, lives, ih, List.mapIdx_cons, List.cons_append,
        List.filterMap_append, List.any_append, hon, hreset]
      simp only [hnumber]
      rfl
    | span n op => exact ih number
    | reset => exact ih number

-- After one more use a life is one from before, with this use, or has just begun.
theorem RecorderOp.of_getElem?_lives_concat {uses : List RecorderOp} {use : RecorderOp} {i : Nat}
    {life : SpanLife} (h : (lives 0 (uses ++ [use]))[i]? = some life) :
    (∃ before, (lives 0 uses)[i]? = some before ∧ life = before.add i use) ∨
      (lives 0 uses).length ≤ i ∧ ∃ options, life = { options } := by
  rw [lives_concat, List.getElem?_append, List.length_mapIdx] at h
  split at h
  · rw [List.getElem?_mapIdx, Option.map_eq_some_iff] at h
    obtain ⟨before, hbefore, rfl⟩ := h
    exact .inl ⟨before, hbefore, by rw [Nat.zero_add]⟩
  · rename_i hi
    obtain ⟨options, -, rfl⟩ := List.mem_map.1 (List.mem_of_getElem? h)
    exact .inr ⟨Nat.le_of_not_lt hi, options, rfl⟩

namespace SpanLife

theorem record_add (ids : IdSupply) (number : Nat) (use : RecorderOp) (life : SpanLife) :
    (life.add number use).record ids number =
      ((use.on? number).map (life.record ids number).apply).getD (life.record ids number) := by
  cases hon : use.on? number with
  | none =>
    have hdone : (life.add number use).done = life.done := by simp [add, hon]
    unfold record written logged early finishes
    rw [hdone]
    rfl
  | some op =>
    have hdone : (life.add number use).done = life.done ++ [op] := by simp [add, hon]
    exact record_of_done_concat hdone rfl ids number

end SpanLife

-- Of a finished span only the number of its finishes changes.
theorem SpanRecord.apply_of_finished {record : SpanRecord} (h : record.finished = true)
    (op : SpanOp) :
    ∃ finishCount, record.apply op = { record with finishCount } ∧ 0 < finishCount := by
  have hpos : 0 < record.finishCount := by simpa [finished] using h
  cases op with
  | tag key value => exact ⟨record.finishCount, if_pos h, hpos⟩
  | log fields => exact ⟨record.finishCount, if_pos h, hpos⟩
  | finish => exact ⟨record.finishCount + 1, rfl, Nat.succ_pos _⟩

namespace Recorder

def use (r : Recorder) : RecorderOp → Recorder
  | .start options => (r.start options).1
  | .span number op => r.apply number op
  | .reset => r.reset

def useAll (r : Recorder) (uses : List RecorderOp) : Recorder := uses.foldl use r

theorem useAll_concat (r : Recorder) (uses : List RecorderOp) (use : RecorderOp) :
    r.useAll (uses ++ [use]) = (r.useAll uses).use use :=
  List.foldl_append

-- What an operation on a span counts against its user.
theorem rejected_apply (r : Recorder) (span : Nat) (op : SpanOp) :
    (r.apply span op).rejected = r.rejected +
      (r.records[span]?.map fun record => op.rejected record.finished).getD 0 := by
  unfold apply
  cases r.records[span]? with
  | none => rfl
  | some record => cases h : record.finished <;> cases op <;> simp [h, SpanOp.rejected]

theorem late_apply (r : Recorder) (span : Nat) (op : SpanOp) :
    (r.apply span op).late = r.late +
      (r.records[span]?.map fun record => op.late record.finished).getD 0 := by
  unfold apply
  cases r.records[span]? with
  | none => rfl
  | some record => cases h : record.finished <;> cases op <;> simp [h, SpanOp.late]

-- Besides records and counts, an operation on a span leaves all as it is.
theorem apply_rest (r : Recorder) (span : Nat) (op : SpanOp) :
    (r.apply span op).ids = r.ids ∧ (r.apply span op).forgotten = r.forgotten := by
  unfold apply
  cases r.records[span]? with
  | none => exact ⟨rfl, rfl⟩
  | some record => cases h : record.finished <;> cases op <;> simp [h]

theorem ids_use (r : Recorder) (use : RecorderOp) : (r.use use).ids = r.ids := by
  cases use with
  | start options => rfl
  | span number op => exact (r.apply_rest number op).1
  | reset => rfl

theorem forgotten_use (r : Recorder) (use : RecorderOp) :
    (r.use use).forgotten = if use.isReset then r.records.length else r.forgotten := by
  cases use with
  | start options => rfl
  | span number op => exact (r.apply_rest number op).2
  | reset => rfl

theorem records_use (r : Recorder) (use : RecorderOp) :
    (r.use use).records =
      (r.records.mapIdx fun i record => ((use.on? i).map record.apply).getD record) ++
        use.options?.toList.map fun options =>
          ({ options } : SpanLife).record r.ids r.records.length := by
  have hsame : r.records.mapIdx (fun _ record => record) = r.records := by
    apply List.ext_getElem?
    simp
  cases use with
  | start options =>
    change r.records ++ _ = r.records.mapIdx (fun _ record => record) ++ _
    rw [hsame]
    simp [SpanLife.record, SpanLife.written, SpanLife.logged, SpanLife.early, SpanLife.finishes,
      RecorderOp.options?]
  | span number op =>
    apply List.ext_getElem?
    intro i
    change (r.apply number op).records[i]? = _
    rw [getElem?_apply]
    by_cases hi : number = i <;> simp [hi, RecorderOp.on?, RecorderOp.options?]
  | reset =>
    change r.records = r.records.mapIdx (fun _ record => record) ++ []
    rw [hsame, List.append_nil]

theorem use_of_finished {r : Recorder} {i : Nat} {record : SpanRecord}
    (hrecord : r.records[i]? = some record) (hfinished : record.finished = true)
    (use : RecorderOp) :
    ∃ finishCount, (r.use use).records[i]? = some { record with finishCount } ∧
      0 < finishCount := by
  have hlt : i < r.records.length := (List.getElem?_eq_some_iff.1 hrecord).1
  rw [records_use, List.getElem?_append_left (by simpa using hlt), List.getElem?_mapIdx, hrecord]
  cases hon : use.on? i with
  | none => exact ⟨record.finishCount, by simp, by simpa [SpanRecord.finished] using hfinished⟩
  | some op =>
    obtain ⟨finishCount, happly, hpos⟩ := SpanRecord.apply_of_finished hfinished op
    exact ⟨finishCount, by simp [happly], hpos⟩

theorem useAll_of_finished {r : Recorder} {i : Nat} {record : SpanRecord}
    (hrecord : r.records[i]? = some record) (hfinished : record.finished = true)
    (uses : List RecorderOp) :
    ∃ finishCount, (r.useAll uses).records[i]? = some { record with finishCount } := by
  induction uses generalizing r record with
  | nil => exact ⟨record.finishCount, hrecord⟩
  | cons use uses ih =>
    obtain ⟨finishCount, hnext, hpos⟩ := use_of_finished hrecord hfinished use
    have hlast := ih hnext (by simpa [SpanRecord.finished] using hpos)
    exact hlast

/-! ### From a new recorder on -/

variable (ids : IdSupply) (propagator : Propagator)

theorem ids_useAll (r : Recorder) (uses : List RecorderOp) : (r.useAll uses).ids = r.ids := by
  induction uses using List.reverseRecOn with
  | nil => rfl
  | append_singleton uses use ih =>
    rw [useAll_concat, ids_use, ih]

theorem records_useAll (uses : List RecorderOp) :
    (({ ids, propagator } : Recorder).useAll uses).records =
      (RecorderOp.lives 0 uses).mapIdx (SpanLife.record ids) := by
  induction uses using List.reverseRecOn with
  | nil => rfl
  | append_singleton uses use ih =>
    rw [useAll_concat, records_use, ids_useAll, ih, RecorderOp.lives_concat, List.mapIdx_append,
      List.mapIdx_mapIdx, List.mapIdx_mapIdx]
    congr 1
    · congr 1
      funext i life
      simp only [Function.comp_apply, Nat.zero_add, SpanLife.record_add]
    · cases use.options? <;> simp

theorem length_records_useAll (uses : List RecorderOp) :
    (({ ids, propagator } : Recorder).useAll uses).records.length =
      (RecorderOp.lives 0 uses).length := by
  rw [records_useAll, List.length_mapIdx]

theorem getElem?_records_useAll (uses : List RecorderOp) (i : Nat) :
    (({ ids, propagator } : Recorder).useAll uses).records[i]? =
      (RecorderOp.lives 0 uses)[i]?.map (SpanLife.record ids i) := by
  rw [records_useAll, List.getElem?_mapIdx]

-- The forgotten spans are the first ones.
theorem forgotten_useAll (uses : List RecorderOp) :
    let run := ({ ids, propagator } : Recorder).useAll uses
    run.forgotten ≤ (RecorderOp.lives 0 uses).length ∧
      ∀ (i : Nat) (life : SpanLife), (RecorderOp.lives 0 uses)[i]? = some life →
        life.forgotten = decide (i < run.forgotten) := by
  induction uses using List.reverseRecOn with
  | nil => exact ⟨Nat.le_refl 0, fun i life hi => by cases hi⟩
  | append_singleton uses use ih =>
    obtain ⟨hle, hforgotten⟩ := ih
    intro run
    have hrun : run.forgotten = if use.isReset then (RecorderOp.lives 0 uses).length
        else (({ ids, propagator } : Recorder).useAll uses).forgotten := by
      rw [← length_records_useAll ids propagator uses, ← forgotten_use, ← useAll_concat]
    have hbound : run.forgotten ≤ (RecorderOp.lives 0 uses).length := by
      rw [hrun]
      split <;> omega
    constructor
    · rw [RecorderOp.lives_concat, List.length_append, List.length_mapIdx]
      omega
    · intro i life hlife
      rcases RecorderOp.of_getElem?_lives_concat hlife with
        ⟨before, hbefore, rfl⟩ | ⟨hnew, options, rfl⟩
      · have hlt : i < (RecorderOp.lives 0 uses).length := (List.getElem?_eq_some_iff.1 hbefore).1
        change (before.forgotten || use.isReset) = _
        rw [hforgotten i before hbefore, hrun]
        cases use.isReset <;> simp [hlt]
      · exact (decide_eq_false (by omega : ¬i < run.forgotten)).symm

-- What is left are the spans that are not forgotten, in the order of their start.
theorem spans_useAll (uses : List RecorderOp) :
    (({ ids, propagator } : Recorder).useAll uses).spans =
      ((RecorderOp.lives 0 uses).zipIdx.filter fun e => !e.1.forgotten).map fun e =>
        (e.2, e.1.record ids e.2) := by
  have hrecords : (({ ids, propagator } : Recorder).useAll uses).records.zipIdx.map
        (fun e => (e.2, e.1)) =
      (RecorderOp.lives 0 uses).zipIdx.map fun e => (e.2, e.1.record ids e.2) := by
    apply List.ext_getElem?
    intro i
    simp [getElem?_records_useAll, List.getElem?_zipIdx, Function.comp_def]
  unfold spans
  rw [hrecords, ← List.map_drop, drop_zipIdx]
  congr 1
  apply List.filter_congr
  intro e he
  rw [(forgotten_useAll ids propagator uses).2 e.2 e.1 (List.mem_zipIdx_iff_getElem?.1 he),
    ← decide_not]
  simp only [Nat.zero_add, Nat.not_lt]

-- A span is reported from its first finish on, unless it is forgotten.
theorem mem_finishedSpans_useAll {uses : List RecorderOp} {i : Nat} {life : SpanLife}
    (hlife : (RecorderOp.lives 0 uses)[i]? = some life) (shown : SpanRecord) :
    (i, shown) ∈ (({ ids, propagator } : Recorder).useAll uses).finishedSpans ↔
      shown = life.record ids i ∧ life.forgotten = false ∧ .finish ∈ life.done := by
  unfold finishedSpans
  rw [spans_useAll, List.mem_filter, List.mem_map]
  constructor
  · rintro ⟨⟨⟨life', i'⟩, hmem, heq⟩, hfinished⟩
    obtain ⟨rfl, rfl⟩ := Prod.mk.inj heq
    obtain ⟨hmem, hforgotten⟩ := List.mem_filter.1 hmem
    obtain rfl : life' = life :=
      Option.some_inj.1 ((List.mem_zipIdx_iff_getElem?.1 hmem).symm.trans hlife)
    exact ⟨rfl, by simpa using hforgotten, (life'.finished_record ids i').1 hfinished⟩
  · rintro ⟨rfl, hforgotten, hdone⟩
    refine ⟨⟨(life, i), List.mem_filter.2 ⟨?_, ?_⟩, rfl⟩, (life.finished_record ids i).2 hdone⟩
    · exact List.mem_zipIdx_iff_getElem?.2 hlife
    · simpa using hforgotten

theorem length_filter_spans_useAll (uses : List RecorderOp) (p : Nat → Bool) :
    ((({ ids, propagator } : Recorder).useAll uses).spans.filter fun e =>
        p e.2.finishCount).length =
      (RecorderOp.lives 0 uses).countP fun life => !life.forgotten && p life.finishes := by
  have hlives : (RecorderOp.lives 0 uses).zipIdx.map Prod.fst = RecorderOp.lives 0 uses :=
    List.zipIdx_map_fst 0 _
  rw [spans_useAll, List.filter_map, List.length_map, List.filter_filter,
    ← List.countP_eq_length_filter]
  conv_rhs => rw [← hlives, List.countP_map]
  congr 1
  funext e
  exact Bool.and_comm _ _

end Recorder

/-! ### What is counted -/

/-- A measure of lives that starts at zero and goes up by what each operation costs. -/
structure SpanLife.Tally (measure : SpanLife → Nat) (cost : SpanOp → Bool → Nat) : Prop where
  start : ∀ options, measure { options } = 0
  keep : ∀ {life life' : SpanLife}, life'.done = life.done → measure life' = measure life
  step : ∀ {life life' : SpanLife} {op : SpanOp}, life'.done = life.done ++ [op] →
    measure life' = measure life + cost op (0 < life.finishes)

theorem SpanLife.tally_rejected : Tally rejected SpanOp.rejected where
  start _ := rfl
  keep h := by unfold rejected finishes; rw [h]
  step := rejected_of_done_concat

theorem SpanLife.tally_late : Tally late SpanOp.late where
  start _ := rfl
  keep h := by unfold late; rw [h]
  step := late_of_done_concat

section Tally

variable {measure : SpanLife → Nat} {cost : SpanOp → Bool → Nat}

theorem SpanLife.Tally.sum_lives_concat (h : Tally measure cost) (uses : List RecorderOp)
    (use : RecorderOp) :
    ((RecorderOp.lives 0 (uses ++ [use])).map measure).sum =
      ((RecorderOp.lives 0 uses).map measure).sum +
        match use with
        | .start _ | .reset => 0
        | .span n op =>
          ((RecorderOp.lives 0 uses)[n]?.map fun life => cost op (0 < life.finishes)).getD 0 := by
  have hkeep (i : Nat) (life : SpanLife) (hon : use.on? i = none) :
      measure (life.add (0 + i) use) = measure life :=
    h.keep (by simp [add, hon])
  have hsame (hon : ∀ i, use.on? i = none) :
      ((RecorderOp.lives 0 uses).mapIdx fun i => add (0 + i) use).map measure =
        (RecorderOp.lives 0 uses).map measure := by
    apply List.ext_getElem
    · simp
    · intro i _ _
      simpa using hkeep i _ (hon i)
  rw [RecorderOp.lives_concat, List.map_append, List.sum_append]
  cases use with
  | start options =>
    rw [hsame fun _ => rfl]
    simp [RecorderOp.options?, h.start]
  | span n op =>
    rw [sum_mapIdx_of_one measure (fun life => cost op (0 < life.finishes)) (n := n)
      (fun life => h.step (by simp [add, RecorderOp.on?]))
      fun i life hi => hkeep i life (if_neg hi.symm)]
    rfl
  | reset =>
    rw [hsame fun _ => rfl]
    rfl

/-- What a recorder counts at each operation adds up to the sum over the spans. -/
theorem SpanLife.Tally.count_useAll (h : Tally measure cost) {count : Recorder → Nat}
    (hstart : ∀ r options, count (r.start options).1 = count r)
    (happly : ∀ (r : Recorder) span op, count (r.apply span op) =
      count r + (r.records[span]?.map fun record => cost op record.finished).getD 0)
    (ids : IdSupply) (propagator : Propagator) (hinitial : count { ids, propagator } = 0)
    {uses : List RecorderOp} (hreset : .reset ∉ uses) :
    count (({ ids, propagator } : Recorder).useAll uses) =
      ((RecorderOp.lives 0 uses).map measure).sum := by
  induction uses using List.reverseRecOn with
  | nil => exact hinitial
  | append_singleton uses use ih =>
    rw [List.mem_append, not_or] at hreset
    rw [h.sum_lives_concat, ← ih hreset.1, Recorder.useAll_concat]
    cases use with
    | start options => exact hstart _ options
    | span n op =>
      refine (happly _ n op).trans ?_
      rw [Recorder.getElem?_records_useAll, Option.map_map]
      rfl
    | reset => exact absurd (List.mem_singleton_self _) hreset.2

end Tally

/--
A new recorder after any uses.  Each span is started, and finished or open, unless it is forgotten.
The record of a span is told by what was done to it up to its first finish and by how often it was
finished; it is reported from the first finish on, and then only this number changes.  As long as
nothing is forgotten, what is counted as rejected or late is the sum over the spans.
-/
theorem Recorder.useAll_counts_and_records (ids : IdSupply) (propagator : Propagator)
    (uses : List RecorderOp) :
    let run := ({ ids, propagator } : Recorder).useAll uses
    let lives := RecorderOp.lives 0 uses
    run.counts.started = run.finishedSpans.length + run.counts.opened ∧
      run.counts.started = lives.countP (fun life => !life.forgotten) ∧
      run.finishedSpans.length = lives.countP (fun life => !life.forgotten && 0 < life.finishes) ∧
      (∀ options, (run.start options).2 = lives.length) ∧
      (∀ (i : Nat) (life : SpanLife), lives[i]? = some life →
        ∃ record : SpanRecord, run.records[i]? = some record ∧
          record.name = life.options.name ∧
          record.context = SpanContext.start life.options.parent ids i ∧
          (∀ key, record.tag? key = life.lastWritten key) ∧
          record.logs = life.logged ∧
          record.finishCount = life.finishes ∧
          (∀ shown, (i, shown) ∈ run.finishedSpans ↔
            shown = record ∧ life.forgotten = false ∧ .finish ∈ life.done) ∧
          (.finish ∈ life.done → ∀ later, ∃ finishCount,
            (run.useAll later).records[i]? = some { record with finishCount })) ∧
      (.reset ∉ uses →
        run.counts.rejected = (lives.map SpanLife.rejected).sum ∧
          run.counts.late = (lives.map SpanLife.late).sum) := by
  intro run lives
  have hstarted : run.counts.started = lives.countP (fun life => !life.forgotten) := by
    have hall := length_filter_spans_useAll ids propagator uses fun _ => true
    rw [List.filter_eq_self.2 fun _ _ => rfl] at hall
    exact hall.trans (by simp only [Bool.and_true, lives])
  have hfinished : run.finishedSpans.length =
      lives.countP (fun life => !life.forgotten && 0 < life.finishes) :=
    length_filter_spans_useAll ids propagator uses fun n => 0 < n
  have hsplit : run.counts.started = run.finishedSpans.length + run.counts.opened :=
    List.length_eq_length_filter_add _
  refine ⟨hsplit, hstarted, hfinished, fun options => ?_, fun i life hlife => ?_, fun hreset => ?_⟩
  · exact length_records_useAll ids propagator uses
  · have hrecord : run.records[i]? = some (life.record ids i) := by
      rw [getElem?_records_useAll, hlife, Option.map_some]
    exact ⟨life.record ids i, hrecord, rfl, rfl, life.tag?_record ids i, rfl, rfl,
      mem_finishedSpans_useAll ids propagator hlife,
      fun hdone => useAll_of_finished hrecord ((life.finished_record ids i).2 hdone)⟩
  · exact ⟨SpanLife.tally_rejected.count_useAll (fun _ _ => rfl) rejected_apply ids propagator rfl
      hreset, SpanLife.tally_late.count_useAll (fun _ _ => rfl) late_apply ids propagator rfl
      hreset⟩

theorem Recorder.counts_and_record_after_second_finish :
    let uses : List RecorderOp :=
      [.start { name := "first" }, .span 0 (.tag "k" (.bool true)), .span 0 .finish,
        .start { name := "second" }, .span 0 (.tag "k" (.bool false)), .span 1 (.log .empty),
        .span 0 .finish, .span 0 (.log .empty)]
    let run := ({ ids := .odd 0 0, propagator := .w3c } : Recorder).useAll uses
    run.counts.rejected = 1 ∧ run.counts.late = 2 ∧
      ∃ record, run.records[0]? = some record ∧ record.tag? "k" = some (.bool true) ∧
        record.finishCount = 2 ∧ (0, record) ∈ run.finishedSpans ∧
        ∀ later, ∃ finishCount,
          (run.useAll later).records[0]? = some { record with finishCount } := by
  intro uses run
  obtain ⟨-, -, -, -, hspans, hcounts⟩ := Recorder.useAll_counts_and_records (.odd 0 0) .w3c uses
  obtain ⟨hrejected, hlate⟩ := hcounts (by decide)
  obtain ⟨record, hrecord, -, -, htag, -, hfinishes, hreported, hkept⟩ := hspans 0 _ rfl
  refine ⟨hrejected, hlate, record, hrecord, ?_, hfinishes, ?_, hkept (by decide)⟩
  · exact (htag "k").trans (by decide)
  · exact (hreported record).2 ⟨rfl, rfl, by decide⟩

end CallTrace
