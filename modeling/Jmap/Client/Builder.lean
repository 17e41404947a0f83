import Jmap.Client
import Jmap.Observability

/-! Settings from which a client is made. -/
namespace Jmap

structure ClientBuilder (A : Type) where
  transport : Transport
  sessionEndpoint : String
  authorization : String
  registry : Registry A
  observability : Option Observability
  serviceName : Option String
  metrics : Bool

namespace ClientBuilder
variable {A : Type}

def new (transport : Transport) : ClientBuilder A := ⟨transport,"","",.empty,none,none,false⟩

/-- Later registries win where both know a method. -/
def withRegistry (builder : ClientBuilder A) (registry : Registry A) : ClientBuilder A :=
  {builder with registry := builder.registry.merge registry}

/-- Turns measurements on too. -/
def withObservability (builder : ClientBuilder A) (config : Observability) : ClientBuilder A :=
  {builder with observability := some config,metrics := true}

def withMetrics (builder : ClientBuilder A) : ClientBuilder A := {builder with metrics := true}

def scope (builder : ClientBuilder A) : String :=
  (builder.serviceName.or (builder.observability.map (·.serviceName))).getD "jmap-client"

def build (builder : ClientBuilder A) : Except Error (Client A) :=
  if builder.observability.all (·.isUsable) then
    .ok {transport := builder.transport,
         sessionEndpoint := builder.sessionEndpoint,
         authorization := builder.authorization,
         registry := builder.registry,
         scope := if builder.metrics then some builder.scope else none}
  else .error (.internal "Failed to initialize observability")

end ClientBuilder
end Jmap
