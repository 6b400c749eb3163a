import BranchCatalog.Fault

namespace BranchCatalog

namespace LinkTemplate

def filePlace : Text :=
  ['\x7b', 'f', 'i', 'l', 'e', '\x7d']

def linePlace : Text :=
  ['\x7b', 'l', 'i', 'n', 'e', '\x7d']

end LinkTemplate

/-- A template of links, which has a place for the file name. -/
structure LinkTemplate where
  text : Text
  hasFilePlace : Text.occursIn LinkTemplate.filePlace text = true

namespace LinkTemplate

/-- Takes a text as a template when it has a place for the file name. -/
def ofText (text : Text) : Except Fault LinkTemplate :=
  if hasFilePlace : Text.occursIn filePlace text = true then .ok ⟨text, hasFilePlace⟩
  else .error (.invalidTemplate text)

/-- The start of the links that are used unless another template is given. -/
def defaultBase : Text :=
  "https://github.com/ubneutrinos/searchingfornues/blob/v30genie/".toList

theorem occursIn_append (wanted before after : Text) (wantedFirst : wanted <+: after) :
    Text.occursIn wanted (before ++ after) = true := by
  induction before with
  | nil =>
      cases after with
      | nil => simp_all [Text.occursIn]
      | cons char rest => simp [Text.occursIn, wantedFirst]
  | cons char before inductionHypothesis => simp [Text.occursIn, inductionHypothesis]

def default : LinkTemplate :=
  ⟨defaultBase ++ (filePlace ++ '#' :: 'L' :: linePlace),
    occursIn_append filePlace defaultBase _ (List.prefix_append _ _)⟩

/-- The link to a location. The file name loses a leading dot and slash and is put in first; the line
number then goes to every place for it, even to one that the file name brought along. -/
def render (template : LinkTemplate) (location : Location) : Text :=
  let filename := (Text.dropStart? ['.', '/'] location.filename).getD location.filename
  Text.replaceAll linePlace (Text.decimal location.line)
    (Text.replaceAll filePlace filename template.text)

end LinkTemplate

end BranchCatalog
