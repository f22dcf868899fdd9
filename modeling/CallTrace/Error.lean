import CallTrace.Context.Traceparent

/-!
# Errors of the tracing layer

An error has a kind, a message and perhaps a cause.  The kinds in the middle arise when a span
context is moved between processes.
-/

namespace CallTrace

/-- What went wrong, in general. -/
inductive ErrorKind
  | invalidConfiguration
  | unsupportedFormat
  | invalidCarrier
  | spanContextCorrupted
  | internal
deriving DecidableEq, Repr

namespace ErrorKind

def all : List ErrorKind :=
  [invalidConfiguration, unsupportedFormat, invalidCarrier, spanContextCorrupted, internal]

-- The kinds that arise when a span context is moved between processes.
def isPropagation : ErrorKind → Bool
  | unsupportedFormat | invalidCarrier | spanContextCorrupted => true
  | invalidConfiguration | internal => false

def name : ErrorKind → String
  | invalidConfiguration => "InvalidConfiguration"
  | unsupportedFormat => "UnsupportedFormat"
  | invalidCarrier => "InvalidCarrier"
  | spanContextCorrupted => "SpanContextCorrupted"
  | internal => "Internal"

def text : ErrorKind → String
  | invalidConfiguration => "invalid configuration"
  | unsupportedFormat => "unsupported format"
  | invalidCarrier => "invalid carrier"
  | spanContextCorrupted => "span context corrupted"
  | internal => "internal error"

def ofName? (name : String) : Option ErrorKind := all.find? (·.name == name)

@[simp] theorem ofName?_name (kind : ErrorKind) : ofName? kind.name = some kind := by
  cases kind <;> decide

end ErrorKind

inductive Cause
  | context (error : ContextError)
  | metadataKey
  | metadataValue
  | other (text : String)
deriving DecidableEq, Repr

namespace Cause

def text : Cause → String
  | context error => error.message
  | metadataKey => "invalid gRPC metadata key name"
  | metadataValue => "failed to parse metadata value"
  | other text => text

def outline : Cause → String
  | context error => error.name
  | metadataKey => "InvalidMetadataKey"
  | metadataValue => "InvalidMetadataValue"
  | other text => Outline.wrap "Cause" (Quoted.encode text)

end Cause

structure Error where
  kind : ErrorKind
  message : String
  cause : Option Cause := none
deriving DecidableEq, Repr

namespace Error

def ofKind (kind : ErrorKind) : Error := { kind, message := kind.text }

def ofContext (error : ContextError) : Error :=
  { kind := .spanContextCorrupted, message := error.message, cause := some (.context error) }

def metadataKey : Error :=
  { kind := .invalidCarrier, message := "invalid metadata key: " ++ Cause.metadataKey.text
    cause := some .metadataKey }

def metadataValue : Error :=
  { kind := .invalidCarrier, message := "invalid metadata value: " ++ Cause.metadataValue.text
    cause := some .metadataValue }

def text (error : Error) : String := error.kind.text ++ ": " ++ error.message

def outline (error : Error) : String :=
  Outline.record "Error"
    [("kind", error.kind.name), ("message", Quoted.encode error.message),
     ("source", Outline.option (error.cause.map Cause.outline))]

end Error

end CallTrace
