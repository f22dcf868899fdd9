import CallTrace.Text.Outline
import CallTrace.Text.Quoted

/-!
# Configuration

What is written to a span, and how the operations that spans stand for are named.
-/

namespace CallTrace

/-- Which end of a call a span describes. -/
inductive SpanKind
  | client
  | server
deriving DecidableEq, Repr

namespace SpanKind

def text : SpanKind → String
  | client => "client"
  | server => "server"

def name : SpanKind → String
  | client => "Client"
  | server => "Server"

end SpanKind

/-- How many messages each end of a call sends. -/
inductive MethodType
  | unary
  | clientStreaming
  | serverStreaming
  | bidiStreaming
deriving DecidableEq, Repr

namespace MethodType

def all : List MethodType := [unary, clientStreaming, serverStreaming, bidiStreaming]

def text : MethodType → String
  | unary => "UNARY"
  | clientStreaming => "CLIENT_STREAMING"
  | serverStreaming => "SERVER_STREAMING"
  | bidiStreaming => "BIDI_STREAMING"

def name : MethodType → String
  | unary => "Unary"
  | clientStreaming => "ClientStreaming"
  | serverStreaming => "ServerStreaming"
  | bidiStreaming => "BidiStreaming"

def streamsRequests : MethodType → Bool
  | clientStreaming | bidiStreaming => true
  | unary | serverStreaming => false

def streamsResponses : MethodType → Bool
  | serverStreaming | bidiStreaming => true
  | unary | clientStreaming => false

end MethodType

/-- Names the operation that a span stands for. -/
abbrev OperationNamer := SpanKind → String → String

namespace OperationNamer

def standard : OperationNamer := fun kind method => kind.name ++ " " ++ method

-- The end of the call in lowercase, a colon and the method.
def qualified : OperationNamer := fun kind method => kind.text ++ ":" ++ method

-- Like `qualified`, with the last part of the method's path only.
def short : OperationNamer := fun kind method =>
  let last := (method.toList.reverse.takeWhile (· ≠ '/')).reverse
  kind.text ++ ":" ++ String.ofList last

def method : OperationNamer := fun _ method => method

def empty : OperationNamer := fun _ _ => ""

end OperationNamer

structure Config where
  -- Whether the text of a message is logged with it.
  logPayloads : Bool := true
  -- Whether the stages of a call are logged.
  verbose : Bool := false
  component : String := "grpc"
  operationName : OperationNamer := .standard

/-- All settings on one line; a namer has no text of its own. -/
def Config.outline (config : Config) : String :=
  Outline.record "TracingConfig"
    [("log_payloads", Outline.bool config.logPayloads), ("verbose", Outline.bool config.verbose),
     ("component", Quoted.encode config.component), ("operation_name", "OperationName")]

end CallTrace
