import CallTrace.Config
import CallTrace.Message
import CallTrace.Recorder
import CallTrace.Status

/-!
# Call log

Binds one span to one call.  The first finish ends the span; what comes after it is ignored.  A log
that is given up with its span open ends it with a cancellation.  Every operation gives the new
state and, in order, what it does to the span and what it reports to the operator.
-/

namespace CallTrace

/-! ## Events -/

def requestEvent := "gRPC request"

def responseEvent := "gRPC response"

def errorEvent := "error"

/-- The stages of a call that are logged on demand. -/
inductive Stage
  | callStarted
  | requestStreamCompleted
  | responseStreamCompleted
  | callCompleted
deriving DecidableEq, Repr

def Stage.text : Stage → String
  | callStarted => "call started"
  | requestStreamCompleted => "request stream completed"
  | responseStreamCompleted => "response stream completed"
  | callCompleted => "call completed"

/-! ## Effects -/

inductive Severity
  | debug
  | warn
deriving DecidableEq, Repr

/-- A line for the operator of the program, with named texts. -/
structure Report where
  severity : Severity
  message : String
  fields : List (String × String)
deriving DecidableEq, Repr

/-- What the log of a call does to the world. -/
inductive Effect
  | span (op : SpanOp)
  | report (line : Report)
deriving DecidableEq, Repr

-- What an effect does to the span, if it is not a report.
def Effect.op? : Effect → Option SpanOp
  | .span op => some op
  | .report _ => none

def Effect.report? : Effect → Option Report
  | .span _ => none
  | .report line => some line

def Recorder.perform (r : Recorder) (span : Nat) (effects : List Effect) : Recorder :=
  (effects.filterMap Effect.op?).foldl (fun r op => r.apply span op) r

/-! ## The log -/

/-- The state of the log of one call. -/
structure CallLog where
  context : SpanContext
  logPayloads : Bool
  verbose : Bool
  finished : Bool := false
deriving DecidableEq, Repr

namespace CallLog

def ofConfig (config : Config) (context : SpanContext) : CallLog :=
  { context, logPayloads := config.logPayloads, verbose := config.verbose }

-- The error event of a fault in the tracing layer itself.
def setupFields (e : Error) : Fields :=
  (Fields.event errorEvent).add TagKey.errorKind (.text e.kind.name)
    |>.add TagKey.errorObject (.text e.text)

def faultFields (s : Status) : Fields :=
  (Fields.event errorEvent).add TagKey.errorKind (.text s.code.name)
    |>.add TagKey.errorObject (.text s.text)
    |>.add TagKey.message (.text s.message)

-- The event of a message, with its text when payloads are logged.
def messageFields {M : Type} [Payload M] (log : CallLog) (event : String) (m : M) : Fields :=
  if log.logPayloads then (Fields.event event).add TagKey.data (.text (Payload.text m))
  else Fields.event event

def message {M : Type} [Payload M] (log : CallLog) (event : String) (m : M) : List Effect :=
  if log.finished then [] else [.span (.log (log.messageFields event m))]

def request {M : Type} [Payload M] (log : CallLog) (m : M) : List Effect :=
  log.message requestEvent m

def response {M : Type} [Payload M] (log : CallLog) (m : M) : List Effect :=
  log.message responseEvent m

-- Logs an event in the life of the call when the log is verbose.
def lifecycle (log : CallLog) (event : String) : List Effect :=
  if log.verbose && !log.finished then [.span (.log (Fields.event event))] else []

def stage (log : CallLog) (s : Stage) : List Effect := log.lifecycle s.text

-- Logs a fault of the tracing layer, which does not end the call.
def setupFault (log : CallLog) (e : Error) : List Effect :=
  .report ⟨.warn, "tracing setup failed", [("kind", e.kind.name), ("error", e.text)]⟩ ::
    if log.finished then [] else [.span (.log (setupFields e))]

def suppressed (log : CallLog) : List Effect :=
  [.report ⟨.warn, "suppressed second finish of span", [("span", log.context.traceparent)]⟩]

def finish (log : CallLog) : CallLog × List Effect :=
  if log.finished then (log, log.suppressed)
  else
    ({ log with finished := true },
      log.stage .callCompleted ++
        [.span .finish,
          .report ⟨.debug, "span finished", [("span", log.context.traceparent)]⟩])

def fault (log : CallLog) (s : Status) : CallLog × List Effect :=
  if log.finished then (log, log.suppressed)
  else
    ({ log with finished := true },
      [.span (.tag TagKey.error (.bool true)), .span (.log (faultFields s)), .span .finish,
        .report ⟨.debug, "span finished with fault",
          [("span", log.context.traceparent), ("code", s.code.name)]⟩])

-- The status of a call that nobody waits for any more.
def abandonedStatus : Status := .cancelled "call dropped before completion"

-- Gives the log up; an open span ends with a cancellation.
def drop (log : CallLog) : CallLog × List Effect :=
  if log.finished then (log, []) else log.fault abandonedStatus

@[simp] theorem finished_finish (log : CallLog) : log.finish.1.finished = true := by
  unfold finish
  split <;> simp_all

@[simp] theorem finished_fault (log : CallLog) (s : Status) :
    (log.fault s).1.finished = true := by
  unfold fault
  split <;> simp_all

@[simp] theorem finished_drop (log : CallLog) : log.drop.1.finished = true := by
  unfold drop
  split <;> simp_all

/-- Opens the log of a call; a fault in the span's setup is logged at once. -/
def opening (log : CallLog) (setup : Option Error) : List Effect :=
  match setup with
  | none => []
  | some e => log.setupFault e

def spanOutline (context : SpanContext) : String :=
  Outline.record "Span" [("context", context.outline)]

def outline (log : CallLog) : String :=
  Outline.record "CallLogger"
    [("span", spanOutline log.context), ("finished", Outline.bool log.finished),
     ("log_payloads", Outline.bool log.logPayloads), ("verbose", Outline.bool log.verbose)]

/-- What setting a span up gave: the span, or the span and a fault. -/
def setupOutline (context : SpanContext) : Option Error → String
  | none => Outline.wrap "Span" (spanOutline context)
  | some e => Outline.record "Fallback" [("span", spanOutline context), ("error", e.outline)]

end CallLog

end CallTrace
