import CallTrace.Address
import CallTrace.Binary64
import CallTrace.Call.Basic
import CallTrace.Call.Start
import CallTrace.CallLog
import CallTrace.Carrier
import CallTrace.Config
import CallTrace.Context.Basic
import CallTrace.Context.Traceparent
import CallTrace.Error
import CallTrace.Flags
import CallTrace.Id
import CallTrace.Interceptor
import CallTrace.Message
import CallTrace.Metadata.Basic
import CallTrace.Metadata.Key
import CallTrace.Proofs.B3
import CallTrace.Proofs.Binary
import CallTrace.Proofs.Call.Course
import CallTrace.Proofs.Call.Faults
import CallTrace.Proofs.Call.Messages
import CallTrace.Proofs.Call.Opening
import CallTrace.Proofs.Call.Parties
import CallTrace.Proofs.Call.Release
import CallTrace.Proofs.Call.Timing
import CallTrace.Proofs.CallLog
import CallTrace.Proofs.Continuity
import CallTrace.Proofs.Dependence
import CallTrace.Proofs.Detail
import CallTrace.Proofs.Digits
import CallTrace.Proofs.Effects
import CallTrace.Proofs.Entries
import CallTrace.Proofs.Headers
import CallTrace.Proofs.Identifiers
import CallTrace.Proofs.Interleaving
import CallTrace.Proofs.LetterCase
import CallTrace.Proofs.Lookup
import CallTrace.Proofs.Override
import CallTrace.Proofs.Payloads
import CallTrace.Proofs.Propagation
import CallTrace.Proofs.Recorder
import CallTrace.Proofs.Refusal
import CallTrace.Proofs.Related
import CallTrace.Proofs.RoundTrip
import CallTrace.Proofs.Session.Alike
import CallTrace.Proofs.Session.AlikeRun
import CallTrace.Proofs.Session.BigStep
import CallTrace.Proofs.Session.Detail
import CallTrace.Proofs.Session.Exchange
import CallTrace.Proofs.Session.Futures
import CallTrace.Proofs.Session.HandsOn
import CallTrace.Proofs.Session.Holds
import CallTrace.Proofs.Session.Redaction
import CallTrace.Proofs.Session.RedactionRun
import CallTrace.Proofs.Session.Run
import CallTrace.Proofs.Session.Secrecy
import CallTrace.Proofs.Session.Spans
import CallTrace.Proofs.Session.Transparency
import CallTrace.Proofs.Session.Verbosity
import CallTrace.Proofs.SetHeader
import CallTrace.Proofs.Stream
import CallTrace.Proofs.Stream.Reader
import CallTrace.Proofs.Stream.Sender
import CallTrace.Proofs.Stream.WriteEvent
import CallTrace.Proofs.Stream.Writer
import CallTrace.Proofs.Traceparent
import CallTrace.Propagation.B3
import CallTrace.Propagation.Basic
import CallTrace.Propagation.TraceContext
import CallTrace.Recorder
import CallTrace.Session.Action
import CallTrace.Session.Continuation
import CallTrace.Session.Exchange
import CallTrace.Session.Future
import CallTrace.Session.Move
import CallTrace.Session.State
import CallTrace.Session.Step
import CallTrace.Session.Tracing
import CallTrace.Status
import CallTrace.Stream.Basic
import CallTrace.Stream.Reader
import CallTrace.Stream.Sink
import CallTrace.Stream.Writer
import CallTrace.Table
import CallTrace.Tag
import CallTrace.Text.Blank
import CallTrace.Text.Bytes
import CallTrace.Text.Decimal
import CallTrace.Text.Fields
import CallTrace.Text.Hex
import CallTrace.Text.Outline
import CallTrace.Text.Quoted
import CallTrace.Text.Shown
