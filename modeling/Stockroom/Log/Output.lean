import Stockroom.Log.Entry
import Stockroom.Text.Blank

/-! The log output of a process. It is set up once, with a format and a filter; later set-ups change
nothing. The environment may name the format and, before all else, the filter. -/
namespace Stockroom
set_option autoImplicit false

inductive LogFormat where
  | json
  | pretty
  | compact
  deriving DecidableEq

namespace LogFormat

/-- The format when none is named. -/
def standard : LogFormat := .json

/-- A format's name in any case, blanks around it; other names mean JSON. -/
def parse (s : String) : LogFormat :=
  let name := (Text.trim s.toList).map Char.toLower
  if name = "pretty".toList then .pretty
  else if name = "compact".toList then .compact
  else .json

/-- The format of a name that may not have been given. -/
def ofName? (name : Option String) : LogFormat := (name.map parse).getD standard

end LogFormat

/-- What the environment says about logging: the name of a format, and a filter that
goes before all others. -/
structure LogSettings where
  format : Option String
  filter : Option String
  deriving DecidableEq

/-- The least severe level that is shown; with none nothing is. -/
structure LogFilter where
  least : Option LogLevel
  deriving DecidableEq

namespace LogFilter

/-- A filter's name in any case. -/
def parse? (s : String) : Option LogFilter :=
  let name := s.toList.map Char.toLower
  if name = "off".toList then some ⟨none⟩
  else if name = "error".toList then some ⟨some .error⟩
  else if name = "warn".toList then some ⟨some .warn⟩
  else if name = "info".toList then some ⟨some .info⟩
  else if name = "debug".toList then some ⟨some .debug⟩
  else if name = "trace".toList then some ⟨some .trace⟩
  else none

def shows (f : LogFilter) (level : LogLevel) : Bool :=
  match f.least with
  | none => false
  | some least => least.severity ≤ level.severity

/-- The filter named by the environment, or else by the directive; an unknown
directive leaves errors. -/
def select (settings : LogSettings) (directive : String) : LogFilter :=
  ((settings.filter >>= parse?).or (parse? directive)).getD ⟨some .error⟩

end LogFilter

/-- The log output of a process, once it is set up. -/
structure LogOutput where
  setUp : Option (LogFormat × LogFilter)
  deriving DecidableEq

namespace LogOutput

def silent : LogOutput := ⟨none⟩

/-- Sets the output up and says whether it was not set up before. -/
def initWith (o : LogOutput) (settings : LogSettings) (format : LogFormat) (directive : String) :
    Bool × LogOutput :=
  match o.setUp with
  | none => (true, ⟨some (format, .select settings directive)⟩)
  | some _ => (false, o)

/-- Format from the environment, information and more severe. -/
def init (o : LogOutput) (settings : LogSettings) : LogOutput :=
  (o.initWith settings (.ofName? settings.format) "info").2

/-- Compact, debugging and more severe. -/
def initVerbose (o : LogOutput) (settings : LogSettings) : LogOutput :=
  (o.initWith settings .compact "debug").2

def shows (o : LogOutput) (level : LogLevel) : Bool :=
  match o.setUp with
  | none => false
  | some (_, filter) => filter.shows level

/-- Whether an entry of the level comes out as a line of JSON. -/
def showsJson (o : LogOutput) (level : LogLevel) : Bool :=
  match o.setUp with
  | some (.json, filter) => filter.shows level
  | _ => false

end LogOutput

end Stockroom
