namespace PixelTables

inductive Level where
  | error
  | warn
  | info
  | debug
  | trace
  deriving DecidableEq, Repr

namespace Level

def name : Level → String
  | .error => "ERROR"
  | .warn => "WARN"
  | .info => "INFO"
  | .debug => "DEBUG"
  | .trace => "TRACE"

def rank : Level → Nat
  | .error => 1
  | .warn => 2
  | .info => 3
  | .debug => 4
  | .trace => 5

end Level

inductive Origin where
  | configuration
  | pipeline
  | emission
  | command
  deriving DecidableEq, Repr

def Origin.name : Origin → String
  | .configuration => "cellbake::config"
  | .pipeline => "cellbake::pipeline"
  | .emission => "cellbake::emit"
  | .command => "cellbake_gen"

structure Note where
  level : Level
  origin : Origin
  text : String
  deriving DecidableEq, Repr

abbrev Journal := List Note

namespace Note

def config (text : String) : Note := ⟨.info, .configuration, text⟩

def substitute (text : String) : Note := ⟨.warn, .pipeline, text⟩

def progress (text : String) : Note := ⟨.info, .pipeline, text⟩

def detail (text : String) : Note := ⟨.debug, .pipeline, text⟩

end Note

end PixelTables
