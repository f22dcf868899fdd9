import CallTrace.Session.State

/-!
# Steps of a session

The steps by which a session is driven, and the entry that each of them gives.
-/

namespace CallTrace

/-- The steps of a session. -/
inductive Step
  | setActive (parent : Parent)
  | failInject (kind : ErrorKind)
  | failExtract (kind : ErrorKind)
  | resetFailures
  | reset
  | find (name : String)
  | single
  | finished
  | recorderOutline
  | start (as name : String) (parent : Parent) (tags : List (String × TagValue))
  | tag (on key : String) (value : TagValue)
  | log (on : String) (fields : Fields)
  | finishSpan (on : String)
  | spanOutline (on : String)
  | inject (parent : Parent) (format : Format)
  | extract (format : Format)
  | carrier (entries : Metadata)
  | openLog (as name : String) (config : Config) (fallback : Option Error)
  | request (on : String) (m : Message)
  | response (on : String) (m : Message)
  | stage (on : String) (s : Stage)
  | finish (on : String)
  | fault (on : String) (s : Status)
  | setupFault (on : String) (e : Error)
  | logContext (on : String)
  | logOutline (on : String)
  | dropLog (on : String)
  | call (name : String) (spec : CallSpec) (actions : List Action)
  | poll (on : String)
  | dropCall (on : String)
  | next (on : String)
  | drain (on : String)
  | terminated (on : String)
  | streamHint (on : String)
  | dropStream (on : String)
  | unwrapStream (on : String)
  | receive (on : String)
  | closeReceiver (on : String)
  | pollKept (on : String)
  | writeKept (on : String) (op : SinkOp Message)
  | dropKept (on : String)
  -- Lets go everything that is still held.
  | close

namespace Session

def answer (s : Session) : Step → Session × Answer
  | .setActive parent =>
    let active := s.exchange.parentContext? none parent
    (s.withRecorder fun r => { r with active }, .context active)
  | .failInject kind => (s.withRecorder fun r => { r with injectFailure := some kind }, .done)
  | .failExtract kind => (s.withRecorder fun r => { r with extractFailure := some kind }, .done)
  | .resetFailures =>
    (s.withRecorder fun r => { r with injectFailure := none, extractFailure := none }, .done)
  | .reset => (s.withRecorder Recorder.reset, .done)
  | .find name => (s, .span (s.recorder.findFinished? name))
  | .single => (s, .span s.recorder.singleFinished?)
  | .finished => (s, .spans s.recorder.finishedSpans)
  | .recorderOutline => (s, .text s.recorder.outline)
  | .start as name parent tags => s.startSpan as name parent tags
  | .tag on key value => s.onSpan on (.tag key value)
  | .log on fields => s.onSpan on (.log fields)
  | .finishSpan on => s.onSpan on .finish
  | .spanOutline on =>
    match (s.exchange.spanNames.find? on).bind s.recorder.context? with
    | some context => (s, .text (CallLog.spanOutline context))
    | none => (s, .absent)
  | .inject parent format =>
    match s.exchange.parentContext? none parent with
    | none => (s, .absent)
    | some context =>
      let (carrier, result) := s.recorder.inject context format s.carrier
      ({ s with carrier }, .injected result carrier)
  | .extract format => (s, .extracted (s.recorder.extract format s.carrier))
  | .carrier entries => ({ s with carrier := entries }, .done)
  | .openLog as name config fallback => s.openLog as name config fallback
  | .request on m => s.onLog on fun l => (l, l.request m)
  | .response on m => s.onLog on fun l => (l, l.response m)
  | .stage on stage => s.onLog on fun l => (l, l.stage stage)
  | .finish on => s.onLog on CallLog.finish
  | .fault on status => s.onLog on fun l => l.fault status
  | .setupFault on e => s.onLog on fun l => (l, l.setupFault e)
  | .logContext on =>
    match s.logs.find? on with
    | some l => (s, .context (some l.log.context))
    | none => (s, .absent)
  | .logOutline on =>
    match s.logs.find? on with
    | some l => (s, .text l.log.outline)
    | none => (s, .absent)
  | .dropLog on =>
    match s.logs.find? on with
    | some l => ({ s with logs := s.logs.erase on }.releaseLog l, .done)
    | none => (s, .absent)
  | .call name spec actions => s.call name spec actions
  | .poll on => s.resume on
  | .dropCall on => s.dropCall on
  | .next on => s.pollResponse on false
  | .drain on => s.pollResponse on true
  | .terminated on => (s, s.terminated on)
  | .streamHint on =>
    match s.responses.find? on with
    | some (_, source) => (s, .size source.size)
    | none => (s, .absent)
  | .dropStream on => s.dropStream on
  | .unwrapStream on => s.unwrapStream on
  | .receive on => s.onOutlet on fun o =>
      let (o, r) := o.receive
      (o, .received r)
  | .closeReceiver on => s.onOutlet on fun o => (o.close, .done)
  | .pollKept on => s.pollKept on
  | .writeKept on op => s.writeKept on op
  | .dropKept on => s.dropKept on
  | .close => (s.close, .done)

-- The session after something was done to it, and the entry that shows what happened.
def record (s : Session) (act : Session → Session × Answer) : Session × Entry :=
  let s := { s with exchange := { s.exchange with notes := [], reports := [] } }
  let (s, answer) := act s
  let finishedNow := s.recorder.finishedSpans.filter fun f => !s.seenFinished.contains f.1
  let entry : Entry :=
    { answer, counts := s.recorder.counts, notes := s.exchange.notes, finishedNow
      reports := s.exchange.reports }
  ({ s with seenFinished := s.seenFinished ++ finishedNow.map (·.1) }, entry)

def step (s : Session) (step : Step) : Session × Entry := s.record (·.answer step)

/-- Runs the steps and ends the session; the entries are those of the steps and of the end. -/
def run (s : Session) : List Step → Session × List Entry
  | [] =>
    let (s, entry) := s.step .close
    (s, [entry])
  | step :: steps =>
    let (s, entry) := s.step step
    let (s, entries) := s.run steps
    (s, entry :: entries)

end Session

end CallTrace
