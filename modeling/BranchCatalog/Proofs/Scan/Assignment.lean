/-
This file tells an assignment to a whole identifier from one to a longer word that holds it. The lines are
cut at their equals signs: a recorded assignment to a variable only says that the variable occurs in a piece
before a single one.
-/

import BranchCatalog.Proofs.Scan.NotePass
import BranchCatalog.Proofs.Scan.Token

namespace BranchCatalog.Scan

/-- No word character stands directly before or directly behind a place. -/
def StandsAlone (before behind : Text) : Prop :=
  (∀ char, before.getLast? = some char → Text.isWord char = false) ∧
    ∀ char, behind.head? = some char → Text.isWord char = false

/-- A text holds a variable as a whole identifier. -/
def HoldsWhole (variableName text : Text) : Prop :=
  ∃ before behind, text = before ++ variableName ++ behind ∧ StandsAlone before behind

/-- A text holds a variable as a whole identifier, with an assignment behind it. -/
def AssignsWhole (variableName text : Text) : Prop :=
  ∃ before behind, text = before ++ variableName ++ behind ∧ StandsAlone before behind ∧
    FollowsIn .assignment behind

/-- A piece of a text without equals signs that reaches from the start of the text or from an equals sign to
one which another character follows. -/
def IsLeftSide (side text : Text) : Prop :=
  ∃ earlier next rest, text = earlier ++ side ++ '=' :: next :: rest ∧ '=' ∉ side ∧ next ≠ '=' ∧
    ∀ char, earlier.getLast? = some char → char = '='

/-- What stands in a text behind its last equals sign. -/
theorem exists_behind_last_sign (text : Text) :
    ∃ earlier tail, text = earlier ++ tail ∧ '=' ∉ tail ∧
      ∀ char, earlier.getLast? = some char → char = '=' := by
  induction text using List.reverseRecOn with
  | nil => exact ⟨[], [], rfl, by simp, by simp⟩
  | append_singleton text last inductionHypothesis =>
      by_cases sign : last = '='
      · subst sign
        exact ⟨text ++ ['='], [], by simp, by simp, by simp⟩
      · obtain ⟨earlier, tail, rfl, clear, ends⟩ := inductionHypothesis
        refine ⟨earlier, tail ++ [last], by simp, ?_, ends⟩
        simp [clear, Ne.symm sign]

namespace StandsAlone

variable {before behind earlier more : Text}

/-- A place touches nothing else in a part of the text around it. -/
theorem within (alone : StandsAlone (earlier ++ before) (behind ++ more)) : StandsAlone before behind := by
  constructor
  · intro char last
    exact alone.1 char (by simp [last])
  · intro char first
    exact alone.2 char (by simp [first])

/-- The equals signs around a piece are no word characters. -/
theorem between (alone : StandsAlone before behind)
    (ends : ∀ char, earlier.getLast? = some char → char = '=') :
    StandsAlone (earlier ++ before) (behind ++ '=' :: more) := by
  have sign : Text.isWord '=' = false := by decide
  constructor
  · intro char last
    rw [List.getLast?_append, Option.or_eq_some_iff] at last
    rcases last with inside | ⟨-, outside⟩
    · exact alone.1 char inside
    · exact ends char outside ▸ sign
  · intro char first
    rw [List.head?_append, Option.or_eq_some_iff] at first
    rcases first with inside | ⟨-, outside⟩
    · exact alone.2 char inside
    · cases outside
      exact sign

end StandsAlone

section Sides

variable {variableName text : Text}

/-- An occurrence with an assignment behind it is one in a left side. -/
theorem exists_leftSide (unsigned : '=' ∉ variableName) {before behind : Text}
    (split : text = before ++ variableName ++ behind) (follows : FollowsIn .assignment behind) :
    ∃ earlier start stop more, before = earlier ++ start ∧ behind = stop ++ more ∧
      IsLeftSide (start ++ variableName ++ stop) text := by
  obtain ⟨gap, next, rest, rfl, clear, different⟩ := follows
  obtain ⟨earlier, tail, rfl, tailClear, ends⟩ := exists_behind_last_sign before
  refine ⟨earlier, tail, gap, _, rfl, rfl, earlier, next, rest, by simp [split], ?_, different, ends⟩
  simp [tailClear, unsigned, clear]

/-- A text assigns to a variable as a whole identifier when a left side holds it as one. -/
theorem assignsWhole_iff (unsigned : '=' ∉ variableName) :
    AssignsWhole variableName text ↔ ∃ side, IsLeftSide side text ∧ HoldsWhole variableName side := by
  constructor
  · rintro ⟨before, behind, split, alone, follows⟩
    obtain ⟨earlier, start, stop, more, rfl, rfl, side⟩ := exists_leftSide unsigned split follows
    exact ⟨_, side, start, stop, rfl, alone.within⟩
  · rintro ⟨_, ⟨earlier, next, rest, split, clear, different, ends⟩, start, stop, rfl, alone⟩
    refine ⟨earlier ++ start, stop ++ '=' :: next :: rest, by simp [split], alone.between ends, ?_⟩
    exact ⟨stop, next, rest, rfl, fun inside => clear (by simp [inside]), different⟩

end Sides

section Scanned

variable {filename content : Text} {events : List Event}

/-- What a scan records as an assignment to a variable is a line with the variable among its tokens and in a
left side. It is an assignment to the whole identifier when a left side holds the variable as such, as it is
when no left side holds the variable inside of a longer word. -/
theorem assignment_is_whole_iff (scanned : scanSource filename content = .ok events)
    {location : Location} {finding : NoteFinding}
    (member : .note .assignment location finding ∈ events) :
    finding.valueVariable ∈ lineTokens finding.text ∧
    (∃ side, IsLeftSide side finding.text ∧ finding.valueVariable <:+: side) ∧
    (AssignsWhole finding.valueVariable finding.text ↔
      ∃ side, IsLeftSide side finding.text ∧ HoldsWhole finding.valueVariable side) ∧
    ((∀ side before behind, IsLeftSide side finding.text →
        side = before ++ finding.valueVariable ++ behind → StandsAlone before behind) →
      AssignsWhole finding.valueVariable finding.text) := by
  have note := (mem_note_iff scanned).mp member
  obtain ⟨before, behind, split, follows⟩ := note.reads
  have unsigned : '=' ∉ finding.valueVariable := not_mem_of_mem_lineTokens note.token (by decide)
  obtain ⟨earlier, start, stop, more, -, -, side⟩ := exists_leftSide unsigned split follows
  have whole : AssignsWhole finding.valueVariable finding.text ↔ ∃ side,
      IsLeftSide side finding.text ∧ HoldsWhole finding.valueVariable side := assignsWhole_iff unsigned
  refine ⟨note.token, ⟨_, side, start, stop, rfl⟩, whole, fun alone => ?_⟩
  exact whole.mpr ⟨_, side, start, stop, rfl, alone _ _ _ side rfl⟩

/-- An assignment to a variable whose name is also a part of a longer word further left on the line. -/
theorem assignment_is_whole_iff_of_later_word :
    let content := "t->Branch(\"b\", &e);\ne2 = 0; e = 1;\n".toList
    let events : List Event := [.file ['a'], .tree ⟨['a'], 1⟩ (undeclaredTree ['t']),
      .branch ⟨['a'], 1⟩ ⟨['t'], ['b'], "b (object)".toList, ['e']⟩,
      .note .assignment ⟨['a'], 2⟩ ⟨['t'], ['b'], ['e'], "e2 = 0; e = 1;".toList⟩]
    scanSource ['a'] content = .ok events ∧ AssignsWhole ['e'] "e2 = 0; e = 1;".toList := by
  intro content events
  have scanned : scanSource ['a'] content = .ok events := by decide +kernel
  have member : .note .assignment ⟨['a'], 2⟩ ⟨['t'], ['b'], ['e'], "e2 = 0; e = 1;".toList⟩ ∈ events := by
    simp [events]
  obtain ⟨-, -, whole, -⟩ := assignment_is_whole_iff scanned member
  refine ⟨scanned, whole.mpr ⟨" 0; e ".toList, ?_, " 0; ".toList, " ".toList, rfl, ?_⟩⟩
  · exact ⟨"e2 =".toList, ' ', "1;".toList, rfl, by decide, by decide, by rintro _ ⟨⟩; rfl⟩
  · exact ⟨by rintro _ ⟨⟩; decide, by rintro _ ⟨⟩; decide⟩

/-- A line that assigns to a longer word only, and mentions the variable behind its equals sign, is recorded
as an assignment to the variable. -/
theorem assignment_to_longer_word :
    let content := "t->Branch(\"b\", &_nu_e);\n_nu_energy = _nu_e;\n".toList
    let note : NoteFinding := ⟨['t'], ['b'], "_nu_e".toList, "_nu_energy = _nu_e;".toList⟩
    scanSource "a.cc".toList content = .ok [.file "a.cc".toList,
        .tree ⟨"a.cc".toList, 1⟩ (undeclaredTree ['t']),
        .branch ⟨"a.cc".toList, 1⟩ ⟨['t'], ['b'], "b (object)".toList, "_nu_e".toList⟩,
        .note .assignment ⟨"a.cc".toList, 2⟩ note] ∧
      ¬ AssignsWhole note.valueVariable note.text := by
  intro content note
  refine ⟨by decide +kernel, ?_⟩
  rintro ⟨before, behind, split, alone, follows⟩
  have places : afterOccurrences note.valueVariable note.text =
      ["nergy = _nu_e;".toList, ";".toList] := by decide
  have place := mem_afterOccurrences_iff.mpr ⟨before, split⟩
  rw [places, List.mem_pair] at place
  rcases place with rfl | rfl
  · exact absurd (alone.2 'n' rfl) (by decide)
  · exact absurd (assignsNext_iff.mpr follows) (by decide)

end Scanned

end BranchCatalog.Scan
