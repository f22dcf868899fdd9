import CallTrace.Config
import CallTrace.Error

/-!
# Interceptors

An interceptor traces calls on a tracer under a configuration.  It is built step by step; only the
tracer has to be given.
-/

namespace CallTrace

/-- Traces calls on a tracer. -/
structure Interceptor (τ : Type) where
  tracer : τ
  config : Config := {}

def Interceptor.outline {τ : Type} (i : Interceptor τ) : String :=
  Outline.openRecord "TracingInterceptor" [("config", i.config.outline)]

/-- What has been given for an interceptor so far. -/
structure InterceptorBuilder (τ : Type) where
  tracer : Option τ := none
  config : Option Config := none

namespace InterceptorBuilder

variable {τ : Type}

def build (b : InterceptorBuilder τ) : Except Error (Interceptor τ) :=
  match b.tracer with
  | none => .error { kind := .invalidConfiguration, message := "a tracer is required" }
  | some tracer => .ok { tracer, config := b.config.getD {} }

def outline (b : InterceptorBuilder τ) : String :=
  Outline.record "TracingInterceptorBuilder"
    [("has_tracer", Outline.bool b.tracer.isSome),
     ("config", Outline.option (b.config.map Config.outline))]

end InterceptorBuilder

end CallTrace
