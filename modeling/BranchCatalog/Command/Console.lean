import BranchCatalog.Command.Fault
import BranchCatalog.Display.Style

namespace BranchCatalog

/-- A piece of the output. How long a scan has taken is only known when the command is over. -/
inductive Printed where
  | text (text : Text)
  | elapsed
  deriving DecidableEq, Repr

def Printed.render (elapsed : Text) : Printed → Text
  | text content => content
  | .elapsed => elapsed

/-- A session holds the disk that a command works on and what the command has printed so far. -/
structure Session where
  disk : Disk
  theme : Theme
  quiet : Bool
  output : List Printed
  errors : Text

/-- A step of a command. What it has printed and changed stays when it fails. -/
abbrev Action : Type → Type := ExceptT CommandFault (StateM Session)

namespace Action

/-- Carries out an operation on the disk. -/
def onDisk {Value : Type} (operation : Disk → Except CommandFault Value × Disk) : Action Value :=
  ExceptT.mk <| modifyGet fun session =>
    let result := operation session.disk
    (result.1, { session with disk := result.2 })

/-- Work on the disk answers what the operation answers and changes nothing but the disk. -/
theorem run_onDisk {Value : Type} (operation : Disk → Except CommandFault Value × Disk)
    (session : Session) :
    (onDisk operation).run.run session =
      ((operation session.disk).1, { session with disk := (operation session.disk).2 }) :=
  rfl

def ask {Value : Type} (question : Disk → Except CommandFault Value) : Action Value :=
  onDisk fun disk => (question disk, disk)

/-- From here on the console is quiet if that is wanted; it never becomes loud again. -/
def hush (wanted : Bool) : Action Unit :=
  modify fun session => { session with quiet := session.quiet || wanted }

def print (pieces : List Printed) : Action Unit :=
  modify fun session => { session with output := session.output ++ pieces ++ [.text ['\n']] }

def printResult (line : Text) : Action Unit :=
  print [.text line]

/-- Prints a line unless the console is quiet. -/
def tell (line : Theme → List Printed) : Action Unit := do
  let session ← get
  if session.quiet then return ()
  else print (line session.theme)

def header (text : Text) : Action Unit :=
  tell fun theme => [.text ("🚀 ".toList ++ theme.set .header text)]

def status (icon label value : Text) : Action Unit :=
  tell fun theme => [.text (icon ++ ' ' :: theme.set .dim label ++ ": ".toList ++ value)]

def success (text : Text) : Action Unit :=
  tell fun theme => [.text ("✅ ".toList ++ theme.set .success text)]

def sectionTitle (title : Text) : Action Unit := do
  tell fun _ => []
  tell fun theme => [.text ('━' :: theme.set .header title ++ ['━'])]

def summaryLine (label value : Text) : Action Unit :=
  tell fun theme => [.text ("  ".toList ++ theme.set .dim label ++ ' ' :: value)]

/-- Prints a line among the errors. -/
def complain (icon : Text) (style : Style) (text : Text) : StateM Session Unit :=
  modify fun session =>
    { session with
      errors := session.errors ++ icon ++ ' ' :: session.theme.set style text ++ ['\n'] }

def warn (text : Text) : Action Unit :=
  complain "⚠️".toList .warn text

end Action

end BranchCatalog
