import TinyLisp.Flag
import TinyLisp.Settings.Load

/-!
The flags that give settings on a command line.
-/

namespace TinyLisp

namespace Settings

def flags : List Flag :=
  [{ name := "config"
     default := .text []
     usage := "YAML file to load settings from. Flags override its values." },
   { name := "http_addr"
     default := .text default.httpAddr
     usage := "Address of the HTTP server. Empty disables it." },
   { name := "grpc_addr"
     default := .text default.grpcAddr
     usage := "Address of the gRPC server. Empty disables it." },
   { name := "request_timeout"
     default := .duration default.requestTimeout
     usage := "Maximum time spent on one HTTP request." },
   { name := "max_body_bytes"
     default := .int64 default.maxBodyBytes
     usage := "Maximum size of an expression." },
   { name := "debug"
     default := .bool default.debug
     usage := "Log every evaluated expression." }]

/-- The layer of settings that the flags of a command line give. -/
def flagLayer (r : Flag.Reading) : Layer where
  httpAddr := r.text? "http_addr"
  grpcAddr := r.text? "grpc_addr"
  requestTimeout := r.duration? "request_timeout"
  maxBodyBytes := r.int64? "max_body_bytes"
  debug := r.bool? "debug"

/-- The file that a command line names; empty if it names none. -/
def flagFile (r : Flag.Reading) : Text := (r.text? "config").getD []

/-- The defaults with the flags of a command line, and the file it names. -/
def ofFlags (r : Flag.Reading) : Settings :=
  { (flagLayer r).onto default with fileName := flagFile r }

/-- The settings that a command line asks for, where `file` gives the content of files. -/
def ofCommandLine (r : Flag.Reading) (file : Text → Except FileFault Text) :
    Except SettingsFault Settings :=
  resolve (flagLayer r) (flagFile r) (file (flagFile r))

end Settings

end TinyLisp
