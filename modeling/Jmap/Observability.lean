import Jmap.Observability.LogFilter

/-! How a program reports what it does: its name, where telemetry goes, what is logged. -/
namespace Jmap

structure Observability where
  serviceName : String
  serviceVersion : String
  /-- None keeps everything local. -/
  endpoint : Option String
  metrics : Bool
  json : Bool
  logLevel : String
  deriving DecidableEq

namespace Observability

def standard : Observability := ⟨"jmap","0.1.0",none,true,false,"info"⟩

def named (serviceName : String) : Observability := {standard with serviceName}

def withEndpoint (config : Observability) (endpoint : String) : Observability :=
  {config with endpoint := some endpoint}

def withoutExport (config : Observability) : Observability := {config with endpoint := none}

def withLogLevel (config : Observability) (logLevel : String) : Observability := {config with logLevel}

def withVersion (config : Observability) (serviceVersion : String) : Observability :=
  {config with serviceVersion}

def withMetrics (config : Observability) (metrics : Bool) : Observability := {config with metrics}

def withJson (config : Observability) (json : Bool) : Observability := {config with json}

/-- Setting it up fails if the log filter cannot be understood. -/
def isUsable (config : Observability) : Bool := LogFilter.isValid config.logLevel

end Observability
end Jmap
