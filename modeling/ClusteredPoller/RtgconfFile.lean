import ClusteredPoller.Library.Outcome
import ClusteredPoller.Rtgconf
import ClusteredPoller.Stdio

/-!
# The file `rtg.conf`

`rtgconf_create`, `rtgconf_verify`, and what `main` puts into the result.
-/

namespace ClusteredPoller

/-- A file that cannot be opened is absent. -/
abbrev File := Option (List Char)

/-- `strdup` and `atoi` need a string. -/
def notNull : Option CString → Except Fault CString
  | some text => .ok text
  | none => .error .nullString

/-- The words of a line in front of its comment. -/
def lineWords (line : List Char) : List CString :=
  strtok [' ', '\t', '\n'] ((CString.ofMemory line).endAt '#')

/-- The directive and the value of a line; an empty line has neither. -/
def lineDirective (line : List Char) : Option (CString × Option CString) :=
  match lineWords line with
  | [] => none
  | token :: tokens => some (token.toLower, tokens.head?)

/-- An `int` stored in an `unsigned`. -/
def atoiUnsigned (text : CString) : UInt32 := UInt32.ofInt (atoi text)

def intervalToken : CString := CString.ofString "interval"

def Rtgconf.setDirective (conf : Rtgconf) (token : CString) (value : Option CString) :
    Except Fault Rtgconf :=
  if token = intervalToken then do
    let text ← notNull value
    return { conf with interval := atoiUnsigned text }
  else if token = CString.ofString "db_host" then do
    let text ← notNull value
    return { conf with dbhost := some text }
  else if token = CString.ofString "db_database" then do
    let text ← notNull value
    return { conf with database := some text }
  else if token = CString.ofString "db_user" then do
    let text ← notNull value
    return { conf with dbuser := some text }
  else if token = CString.ofString "db_pass" then do
    let text ← notNull value
    return { conf with dbpass := some text }
  else if token = CString.ofString "threads" then do
    let text ← notNull value
    return { conf with threads := atoiUnsigned text }
  else .ok conf

/-- One turn of the loop of `rtgconf_create`. -/
def Rtgconf.readLine (conf : Rtgconf) (line : List Char) : Except Fault Rtgconf :=
  match lineDirective line with
  | none => .ok conf
  | some directive => conf.setDirective directive.1 directive.2

/-- The lines of the file, as they come into the buffer. -/
def bufferedLines (text : List Char) : List (List Char) := fgetsAll 512 (by decide) text

/-- The fields that `rtgconf_create` does not set stay as they are in the
memory that it was given. -/
def rtgconfCreate (memory : Rtgconf) (file : File) : Except Fault (Option Rtgconf) :=
  match file with
  | none => .ok none
  | some text => do
      let defaults :=
        { memory with
          interval := 300
          threads := 8
          dbhost := none
          database := none
          dbuser := none
          dbpass := none
          numDbthreads := 1 }
      let conf ← (bufferedLines text).foldlM Rtgconf.readLine defaults
      return some conf

def rtgconfVerify (config : Rtgconf) : Bool :=
  config.dbhost.isSome && config.database.isSome && config.dbuser.isSome

/-- The command line values. -/
structure Options where
  useDb : Bool
  useRateColumn : Bool
  useCurrvalueColumn : Bool
  allowDbZero : Bool
  maxDbQueue : UInt32
  numDbthreads : UInt32
  maxErrorsPerHost : UInt32

/-- `main` patches the configuration with command line values. -/
def Rtgconf.patch (config : Rtgconf) (options : Options) : Rtgconf :=
  { config with
    useDb := options.useDb
    useRateColumn := options.useRateColumn
    useCurrvalueColumn := options.useCurrvalueColumn
    allowDbZero := options.allowDbZero
    maxDbQueue := options.maxDbQueue
    numDbthreads := options.numDbthreads
    maxErrorsPerHost := options.maxErrorsPerHost }

end ClusteredPoller
