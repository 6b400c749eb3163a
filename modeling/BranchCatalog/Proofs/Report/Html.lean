/-
This file reads the cells of a report back from its markup. Where rows and cells end is decided by the markup
alone, whatever the texts, the file names and the link template hold.
-/

import BranchCatalog.Proofs.Text.Cut
import BranchCatalog.Report.Html
import Mathlib.Data.List.Forall2

namespace BranchCatalog.Html

/-- A text with the characters that its entities stand for. -/
def unescape : Text → Text
  | '&' :: 'a' :: 'm' :: 'p' :: ';' :: rest => '&' :: unescape rest
  | '&' :: 'l' :: 't' :: ';' :: rest => '<' :: unescape rest
  | '&' :: 'g' :: 't' :: ';' :: rest => '>' :: unescape rest
  | '&' :: 'q' :: 'u' :: 'o' :: 't' :: ';' :: rest => '"' :: unescape rest
  | char :: rest => char :: unescape rest
  | [] => []

/-- A text is shown when what stands for it holds no markup and means the text. -/
structure ShowsText (text shown : Text) : Prop where
  opensNothing : '<' ∉ shown
  closesNothing : '>' ∉ shown
  means : unescape shown = text

def anchor (target shown : Text) : Text :=
  "<a href=\"".toList ++ target ++ "\">".toList ++ shown ++ "</a>".toList

/-- A location with a file name is shown as an anchor that leads to its link, and one without a file name as
nothing. The target of the anchor does not end its quotes. -/
def ShowsLink (template : LinkTemplate) (location : Location) (cell : Text) : Prop :=
  if location.filename = [] then cell = []
  else ∃ target shown, cell = anchor target shown ∧ '"' ∉ target ∧
    ShowsText (template.render location) target ∧ ShowsText location.written shown

/-- How many anchors a text opens. -/
def anchorCount (text : Text) : Nat :=
  (Text.cut ['<', 'a'] text).length - 1

/-- What a cell of a report is about. -/
inductive Content where
  | link (location : Location)
  | text (shown : Text)
  | note (shown : ReportNote)
  | nothing

/-- A cell shows its content in the way of its kind. -/
def Content.IsShownBy (template : LinkTemplate) : Content → Text → Prop
  | link location, cell => ShowsLink template location cell
  | text shown, cell => ShowsText shown cell
  | note shown, cell => ∃ link written, cell = link ++ ' ' :: written ∧
      ShowsLink template shown.location link ∧ ShowsText shown.text written
  | nothing, cell => cell = []

/-- How many anchors a content needs: one for a location with a file name. -/
def Content.anchors : Content → Nat
  | link location => if location.filename = [] then 0 else 1
  | note shown => if shown.location.filename = [] then 0 else 1
  | text _ | nothing => 0

/-- The contents of the cells of a branch, which are four also when there is none. -/
def branchContents : Option ReportBranch → List Content
  | some branch =>
    [.link branch.location, .text branch.name, .text branch.leafDefinition,
      .text branch.valueVariable]
  | none => List.replicate 4 .nothing

def contents (row : ReportRow) : List Content :=
  [.link row.treeLocation, .text row.treeName, .text row.treeTitle, .text row.treeVariable] ++
    branchContents row.branch ++ [row.comment.elim .nothing .note, row.assignment.elim .nothing .note]

def rowStart : Text :=
  "<tr><td>".toList

def rowEnd : Text :=
  "</td></tr>\n".toList

def cellEnd : Text :=
  "</td>\n<td>".toList

/-- The cells of a row whose end has been cut off. -/
def readRow? (row : Text) : Option (List Text) :=
  (Text.dropStart? rowStart row).map (Text.cut cellEnd)

/-- The cells of rows of data, which are cut apart first at the ends of rows and then at those of cells. -/
def readRows? (data : Text) : Option (List (List Text)) :=
  if (Text.cut rowEnd data).getLast? = some [] then
    (Text.cut rowEnd data).dropLast.mapM readRow?
  else none

section Escape

theorem unescape_cons {char : Char} (plain : char ≠ '&') (rest : Text) :
    unescape (char :: rest) = char :: unescape rest := by
  rw [unescape]
  all_goals simp [plain]

theorem unescape_escapeChar_append (char : Char) (rest : Text) :
    unescape (escapeChar char ++ rest) = char :: unescape rest := by
  by_cases ampersand : char = '&'
  · subst ampersand
    rfl
  · by_cases less : char = '<'
    · subst less
      rfl
    · by_cases greater : char = '>'
      · subst greater
        rfl
      · simp [escapeChar, ampersand, less, greater, unescape_cons]

/-- A character that is escaped for an attribute is read back. -/
theorem unescape_escapeAttributeChar_append (char : Char) (rest : Text) :
    unescape (escapeAttributeChar char ++ rest) = char :: unescape rest := by
  by_cases quote : char = '"'
  · subst quote
    rfl
  · rw [escapeAttributeChar, if_neg quote, unescape_escapeChar_append]

/-- A text that has been escaped one character after another means the text. -/
theorem unescape_flatMap {encode : Char → Text}
    (each : ∀ char rest, unescape (encode char ++ rest) = char :: unescape rest) (text : Text) :
    unescape (text.flatMap encode) = text := by
  induction text with
  | nil => rfl
  | cons char text inductionHypothesis => rw [List.flatMap_cons, each, inductionHypothesis]

/-- Escaping leaves nothing that opens or closes a tag. -/
theorem not_mem_escapeChar (char : Char) : '<' ∉ escapeChar char ∧ '>' ∉ escapeChar char := by
  unfold escapeChar
  split
  · decide
  · split
    · decide
    · split
      · decide
      · next less greater => simp [Ne.symm less, Ne.symm greater]

/-- Escaping for an attribute leaves no quote either. -/
theorem not_mem_escapeAttributeChar (char : Char) :
    '<' ∉ escapeAttributeChar char ∧ '>' ∉ escapeAttributeChar char ∧
      '"' ∉ escapeAttributeChar char := by
  unfold escapeAttributeChar
  split
  · decide
  · next quote =>
      refine ⟨(not_mem_escapeChar char).1, (not_mem_escapeChar char).2, ?_⟩
      unfold escapeChar
      split
      · decide
      · split
        · decide
        · split
          · decide
          · simp [Ne.symm quote]

theorem showsText_escape (text : Text) : ShowsText text (escape text) where
  opensNothing := by simp [escape, (not_mem_escapeChar _).1]
  closesNothing := by simp [escape, (not_mem_escapeChar _).2]
  means := unescape_flatMap unescape_escapeChar_append text

theorem showsText_escapeAttribute (text : Text) : ShowsText text (escapeAttribute text) where
  opensNothing := by simp [escapeAttribute, (not_mem_escapeAttributeChar _).1]
  closesNothing := by simp [escapeAttribute, (not_mem_escapeAttributeChar _).2.1]
  means := unescape_flatMap unescape_escapeAttributeChar_append text

theorem quote_not_mem_escapeAttribute (text : Text) : '"' ∉ escapeAttribute text := by
  simp [escapeAttribute, (not_mem_escapeAttributeChar _).2.2]

/-- A link to a source shows its location, and its target is what the template renders. -/
theorem showsLink_sourceLink (template : LinkTemplate) (location : Location) :
    ShowsLink template location (sourceLink template location) := by
  unfold ShowsLink sourceLink
  by_cases unnamed : location.filename = []
  · simp [unnamed]
  · rw [if_neg unnamed, if_neg (by simpa using unnamed)]
    exact ⟨_, _, rfl, quote_not_mem_escapeAttribute _, showsText_escapeAttribute _,
      showsText_escape _⟩

end Escape

section Anchor

variable {target shown rest more : Text}

/-- An anchor opens one piece of markup at its start and another one behind what it shows. -/
theorem anchor_append (target shown rest : Text) :
    let inside : Text := " href=\"".toList ++ target ++ "\">".toList ++ shown
    let behind : Text := "/a>".toList ++ rest
    anchor target shown ++ rest = ['<', 'a'] ++ (inside ++ '<' :: behind) := by
  unfold anchor
  simp

/-- A text that starts with markup, and has no more markup in it, can occur only in these two places. -/
theorem occursIn_anchor_append (targetClear : '<' ∉ target) (shownClear : '<' ∉ shown)
    (restClear : '<' ∉ rest) (single : '<' ∉ more) :
    Text.occursIn ('<' :: more) (anchor target shown ++ rest) =
      (more.isPrefixOf ('a' :: " href=\"".toList ++ target ++ "\">".toList ++ shown) ||
        more.isPrefixOf ("/a>".toList ++ rest)) := by
  have inside : '<' ∉ 'a' :: " href=\"".toList ++ target ++ "\">".toList ++ shown := by
    simp [targetClear, shownClear]
  have behind : '<' ∉ "/a>".toList ++ rest := by simp [restClear]
  rw [anchor_append, ← List.append_assoc, Text.occursIn_append_cons single,
    Text.occursIn_cons_of_not_mem behind]
  exact congrArg (· || _) (Text.occursIn_cons_of_not_mem inside)

theorem anchorCount_of_not_mem {text : Text} (clear : '<' ∉ text) : anchorCount text = 0 := by
  rw [anchorCount, Text.cut_of_not_occursIn (Text.not_occursIn_of_not_mem clear)]
  rfl

theorem anchorCount_anchor_append (targetClear : '<' ∉ target) (shownClear : '<' ∉ shown)
    (restClear : '<' ∉ rest) : anchorCount (anchor target shown ++ rest) = 1 := by
  have inside : '<' ∉ " href=\"".toList ++ target ++ "\">".toList ++ shown := by
    simp [targetClear, shownClear]
  have behind : '<' ∉ "/a>".toList ++ rest := by simp [restClear]
  rw [anchorCount, anchor_append, Text.cut_separator_append (by decide), Text.cut_of_not_occursIn]
  · rfl
  · rw [Text.occursIn_append_cons (by decide), Text.not_occursIn_of_not_mem inside,
      Text.occursIn_cons_of_not_mem behind]
    simp [List.isPrefixOf]

end Anchor

section Inside

/-- A cell stays inside its row when no cell starts in it and no row ends in it. -/
structure StaysInside (cell : Text) : Prop where
  startsNoCell : Text.occursIn ('<' :: "td>".toList) cell = false
  endsNoRow : Text.occursIn ('<' :: "/tr>\n".toList) cell = false

variable {cell : Text} {cells : List Text}

/-- A text without tags stays inside its cell. -/
theorem staysInside_of_not_mem (clear : '<' ∉ cell) : StaysInside cell :=
  ⟨Text.not_occursIn_of_not_mem clear, Text.not_occursIn_of_not_mem clear⟩

theorem staysInside_anchor_append {target shown rest : Text} (targetClear : '<' ∉ target)
    (shownClear : '<' ∉ shown) (restClear : '<' ∉ rest) : StaysInside (anchor target shown ++ rest) where
  startsNoCell := occursIn_anchor_append targetClear shownClear restClear (by decide)
  endsNoRow := occursIn_anchor_append targetClear shownClear restClear (by decide)

/-- The cells of a row are found again between the ends of cells. -/
theorem cut_join (nonempty : cells ≠ []) (inside : ∀ cell ∈ cells, StaysInside cell) :
    Text.cut cellEnd (Text.join cellEnd cells) = cells := by
  induction cells with
  | nil => contradiction
  | cons cell cells inductionHypothesis =>
      have first := (inside cell List.mem_cons_self).startsNoCell
      have part : '<' :: "td>".toList <:+: cellEnd := by decide
      cases cells with
      | nil =>
          rw [Text.join, List.intercalate_singleton]
          exact Text.cut_of_not_occursIn (Text.not_occursIn_of_infix part first)
      | cons second cells =>
          have clear : Text.occursIn cellEnd (cell ++ cellEnd.dropLast) = false := by
            apply Text.not_occursIn_of_infix part
            show Text.occursIn _ (cell ++ '<' :: "/td>\n<td".toList) = false
            rw [Text.occursIn_append_cons (by decide), first]
            decide
          have rest := inductionHypothesis (List.cons_ne_nil second cells)
            fun other member => inside other (List.mem_cons_of_mem cell member)
          rw [Text.join_cons_cons, Text.cut_append (by decide) clear, rest]

theorem not_occursIn_join (inside : ∀ cell ∈ cells, StaysInside cell) :
    Text.occursIn ('<' :: "/tr>\n".toList) (Text.join cellEnd cells ++ '<' :: "/td></tr>".toList) =
      false := by
  induction cells with
  | nil => decide
  | cons cell cells inductionHypothesis =>
      have first := (inside cell List.mem_cons_self).endsNoRow
      cases cells with
      | nil =>
          rw [Text.join, List.intercalate_singleton, Text.occursIn_append_cons (by decide), first]
          decide
      | cons second cells =>
          have rest := inductionHypothesis fun other member =>
            inside other (List.mem_cons_of_mem cell member)
          rw [Text.join_cons_cons, List.append_assoc, List.append_assoc]
          generalize Text.join cellEnd (second :: cells) ++ '<' :: "/td></tr>".toList = remaining
            at rest ⊢
          have spelled : cellEnd ++ remaining =
              '<' :: ("/td>\n".toList ++ '<' :: ("td>".toList ++ remaining)) := by
            unfold cellEnd
            simp
          rw [spelled, Text.occursIn_append_cons (by decide), first]
          simpa [Text.occursIn, List.isPrefixOf] using rest

end Inside

section Rows

/-- A row is its cells between the marks of a row. -/
theorem dataRow_eq (cells : List Text) :
    dataRow cells = rowStart ++ Text.join cellEnd cells ++ rowEnd :=
  rfl

/-- The rows of data are found again between the ends of rows. -/
theorem cut_flatMap_dataRow {rows : List (List Text)}
    (inside : ∀ cells ∈ rows, ∀ cell ∈ cells, StaysInside cell) :
    Text.cut rowEnd (rows.flatMap dataRow) =
      rows.map (fun cells => rowStart ++ Text.join cellEnd cells) ++ [[]] := by
  induction rows with
  | nil => rfl
  | cons cells rows inductionHypothesis =>
      have clear : Text.occursIn rowEnd
          (rowStart ++ Text.join cellEnd cells ++ rowEnd.dropLast) = false := by
        have part : '<' :: "/tr>\n".toList <:+: rowEnd := by decide
        have spelled : rowEnd.dropLast = '<' :: "/td></tr>".toList := by decide
        apply Text.not_occursIn_of_infix part
        have rest := not_occursIn_join (inside cells List.mem_cons_self)
        rw [List.append_assoc, spelled]
        unfold rowStart
        simpa [Text.occursIn, List.isPrefixOf] using rest
      have rest := inductionHypothesis fun other member =>
        inside other (List.mem_cons_of_mem cells member)
      rw [List.flatMap_cons, dataRow_eq, Text.cut_append (by decide) clear, rest, List.map_cons,
        List.cons_append]

/-- The cells of a row are cut apart again. -/
theorem readRow?_append_join {cells : List Text} (nonempty : cells ≠ [])
    (inside : ∀ cell ∈ cells, StaysInside cell) :
    readRow? (rowStart ++ Text.join cellEnd cells) = some cells := by
  rw [readRow?, Text.dropStart?_append, Option.map_some, cut_join nonempty inside]

theorem mapM_readRow? {rows : List (List Text)} (nonempty : ∀ cells ∈ rows, cells ≠ [])
    (inside : ∀ cells ∈ rows, ∀ cell ∈ cells, StaysInside cell) :
    (rows.map fun cells => rowStart ++ Text.join cellEnd cells).mapM readRow? = some rows := by
  induction rows with
  | nil => rfl
  | cons cells rows inductionHypothesis =>
      have first := readRow?_append_join (nonempty cells List.mem_cons_self)
        (inside cells List.mem_cons_self)
      have rest := inductionHypothesis
        (fun other member => nonempty other (List.mem_cons_of_mem cells member))
        (fun other member => inside other (List.mem_cons_of_mem cells member))
      rw [List.map_cons, List.mapM_cons, first, rest]
      rfl

/-- The cells of all rows are cut apart again. -/
theorem readRows?_flatMap_dataRow {rows : List (List Text)}
    (nonempty : ∀ cells ∈ rows, cells ≠ [])
    (inside : ∀ cells ∈ rows, ∀ cell ∈ cells, StaysInside cell) :
    readRows? (rows.flatMap dataRow) = some rows := by
  rw [readRows?, cut_flatMap_dataRow inside, if_pos List.getLast?_concat, List.dropLast_concat,
    mapM_readRow? nonempty inside]

end Rows

section Content

variable {template : LinkTemplate} {location : Location} {link rest : Text}

theorem ShowsLink.staysInside (shows : ShowsLink template location link) (clear : '<' ∉ rest) :
    StaysInside (link ++ rest) := by
  unfold ShowsLink at shows
  split at shows
  · subst shows
    exact staysInside_of_not_mem clear
  · obtain ⟨target, shown, rfl, -, targetShown, writtenShown⟩ := shows
    exact staysInside_anchor_append targetShown.opensNothing writtenShown.opensNothing clear

/-- A link has an anchor unless its file name is empty. -/
theorem ShowsLink.anchorCount (shows : ShowsLink template location link) (clear : '<' ∉ rest) :
    anchorCount (link ++ rest) = if location.filename = [] then 0 else 1 := by
  unfold ShowsLink at shows
  split at shows
  · next unnamed =>
      subst shows
      rw [if_pos unnamed]
      exact anchorCount_of_not_mem clear
  · next named =>
      obtain ⟨target, shown, rfl, -, targetShown, writtenShown⟩ := shows
      rw [if_neg named]
      exact anchorCount_anchor_append targetShown.opensNothing writtenShown.opensNothing clear

variable {content : Content} {cell : Text}

/-- Whatever a cell shows stays inside the cell. -/
theorem Content.IsShownBy.staysInside (shown : content.IsShownBy template cell) :
    StaysInside cell := by
  cases content with
  | link location => simpa using ShowsLink.staysInside shown List.not_mem_nil
  | text text => exact staysInside_of_not_mem shown.opensNothing
  | note note =>
      obtain ⟨link, written, rfl, linkShown, writtenShown⟩ := shown
      exact linkShown.staysInside (by simp [writtenShown.opensNothing])
  | nothing =>
      rw [shown]
      exact staysInside_of_not_mem List.not_mem_nil

/-- A cell has as many anchors as its content has links. -/
theorem Content.IsShownBy.anchorCount (shown : content.IsShownBy template cell) :
    anchorCount cell = content.anchors := by
  cases content with
  | link location => simpa [Content.anchors] using ShowsLink.anchorCount shown List.not_mem_nil
  | text text => exact anchorCount_of_not_mem shown.opensNothing
  | note note =>
      obtain ⟨link, written, rfl, linkShown, writtenShown⟩ := shown
      exact linkShown.anchorCount (by simp [writtenShown.opensNothing])
  | nothing =>
      rw [shown]
      exact anchorCount_of_not_mem List.not_mem_nil

theorem isShownBy_noteCell (template : LinkTemplate) (note : Option ReportNote) :
    (note.elim Content.nothing Content.note).IsShownBy template (noteCell template note) := by
  cases note with
  | none => exact rfl
  | some note =>
      exact ⟨_, _, rfl, showsLink_sourceLink template note.location, showsText_escape note.text⟩

theorem forall₂_isShownBy_branchCells (template : LinkTemplate) (branch : Option ReportBranch) :
    List.Forall₂ (Content.IsShownBy template) (branchContents branch)
      (branchCells template branch) := by
  cases branch with
  | none => exact .cons rfl (.cons rfl (.cons rfl (.cons rfl .nil)))
  | some branch =>
      exact .cons (showsLink_sourceLink template branch.location)
        (.cons (showsText_escape branch.name) (.cons (showsText_escape branch.leafDefinition)
          (.cons (showsText_escape branch.valueVariable) .nil)))

/-- The cells of a row show its contents one after another. -/
theorem forall₂_isShownBy_cells (template : LinkTemplate) (row : ReportRow) :
    List.Forall₂ (Content.IsShownBy template) (contents row) (cells template row) := by
  have tree : List.Forall₂ (Content.IsShownBy template)
      [.link row.treeLocation, .text row.treeName, .text row.treeTitle, .text row.treeVariable]
      [sourceLink template row.treeLocation, escape row.treeName, escape row.treeTitle,
        escape row.treeVariable] :=
    .cons (showsLink_sourceLink template row.treeLocation)
      (.cons (showsText_escape row.treeName) (.cons (showsText_escape row.treeTitle)
        (.cons (showsText_escape row.treeVariable) .nil)))
  have notes : List.Forall₂ (Content.IsShownBy template)
      [row.comment.elim .nothing .note, row.assignment.elim .nothing .note]
      [noteCell template row.comment, noteCell template row.assignment] :=
    .cons (isShownBy_noteCell template row.comment)
      (.cons (isShownBy_noteCell template row.assignment) .nil)
  exact List.rel_append (List.rel_append tree (forall₂_isShownBy_branchCells template row.branch))
    notes

theorem staysInside_of_forall₂ {contents : List Content} {cells : List Text}
    (shown : List.Forall₂ (Content.IsShownBy template) contents cells) :
    ∀ cell ∈ cells, StaysInside cell := by
  induction shown with
  | nil => simp
  | cons first _ inductionHypothesis =>
      exact List.forall_mem_cons.mpr ⟨first.staysInside, inductionHypothesis⟩

/-- The rows of data are read back as the cells of the report rows. -/
theorem readRows?_cells (template : LinkTemplate) (rows : List ReportRow) :
    readRows? (rows.flatMap fun row => dataRow (cells template row)) =
      some (rows.map (cells template)) := by
  rw [← List.flatMap_map]
  apply readRows?_flatMap_dataRow
  · intro cells member empty
    obtain ⟨row, -, rfl⟩ := List.mem_map.mp member
    have count := cells_length template row
    simp [empty, header] at count
  · intro cells member
    obtain ⟨row, -, rfl⟩ := List.mem_map.mp member
    exact staysInside_of_forall₂ (forall₂_isShownBy_cells template row)

end Content

end BranchCatalog.Html
