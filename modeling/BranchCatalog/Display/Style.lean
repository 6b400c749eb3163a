import BranchCatalog.Text.Basic

namespace BranchCatalog

/-- The roles that a text can have on the terminal. -/
inductive Style where
  | header
  | success
  | error
  | warn
  | count
  | dim
  deriving DecidableEq, Repr

/-- A plain theme leaves texts as they are, and a coloured one sets them off. -/
inductive Theme where
  | plain
  | colored
  deriving DecidableEq, Repr

def Style.codes : Style → Text
  | header => "32;1".toList
  | success => "32".toList
  | error => "31;1".toList
  | warn => "33".toList
  | count => "36;1".toList
  | dim => "2".toList

def Theme.opening (theme : Theme) (style : Style) : Text :=
  match theme with
  | plain => []
  | colored => "\x1b[".toList ++ style.codes ++ ['m']

def Theme.closing (theme : Theme) : Text :=
  match theme with
  | plain => []
  | colored => "\x1b[0m".toList

/-- Sets a text in a style; the coloured theme turns the style off again behind it. -/
def Theme.set (theme : Theme) (style : Style) (text : Text) : Text :=
  theme.opening style ++ text ++ theme.closing

/-- What the environment says about colours: the type of the terminal, and whether colours are
unwanted, switched off or switched on. -/
structure ColorWishes where
  terminal : Option Text
  unwanted : Option Text
  switch : Option Text
  forced : Option Text

/-- Only terminals show colours. They do unless they are too simple or colours are unwanted or switched
off, and they always do when colours are forced. -/
def Theme.ofTerminal (isTerminal : Bool) (wishes : ColorWishes) : Theme :=
  let capable := wishes.unwanted.isNone && wishes.terminal.any (· ≠ "dumb".toList)
  let enabled := capable && wishes.switch ≠ some ['0'] || wishes.forced.any (· ≠ ['0'])
  if isTerminal && enabled then .colored else .plain

end BranchCatalog
