import BranchCatalog.Proofs.Load.Reference

namespace BranchCatalog

namespace Event

/-- The name of the tree that an event refers to. -/
def treeName? : Event → Option Text
  | branch _ finding => some finding.treeName
  | note _ _ finding => some finding.treeName
  | _ => none

/-- Holds when the tree that an event refers to is among the earlier events of its own file. -/
def isDeclared (earlier : List Event) (event : Event) : Bool :=
  event.treeName?.all fun treeName => earlier.any (declaresTreeOf treeName event.filename)

theorem isDeclared_branch (earlier : List Event) (location : Location) (finding : BranchFinding) :
    (branch location finding).isDeclared earlier =
      earlier.any (declaresTreeOf finding.treeName location.filename) := rfl

theorem isDeclared_note (earlier : List Event) (kind : NoteKind) (location : Location)
    (finding : NoteFinding) :
    (note kind location finding).isDeclared earlier =
      earlier.any (declaresTreeOf finding.treeName location.filename) := rfl

/-- What is declared stays declared among more events. -/
theorem isDeclared_append {earlier : List Event} {event : Event}
    (declared : event.isDeclared earlier = true) (before after : List Event) :
    event.isDeclared (before ++ earlier ++ after) = true := by
  rw [isDeclared, Option.all_eq_true] at declared ⊢
  intro treeName named
  rw [List.any_append, List.any_append, declared treeName named, Bool.or_true, Bool.true_or]

end Event

/-- Every event that refers to a tree comes after one of its name in its file. -/
def DeclaredAfter (prior events : List Event) : Prop :=
  ∀ earlier event later, events = earlier ++ event :: later →
    event.isDeclared (prior ++ earlier) = true

/-- An element of two lists in sequence is one of the first or one of the second. -/
theorem split_of_append {Item : Type} {first second earlier later : List Item} {item : Item}
    (split : first ++ second = earlier ++ item :: later) :
    (∃ rest, first = earlier ++ item :: rest ∧ later = rest ++ second) ∨
      ∃ rest, earlier = first ++ rest ∧ second = rest ++ item :: later := by
  rcases List.append_eq_append_iff.mp split with ⟨rest, inside, same⟩ | ⟨rest, inside, same⟩
  · exact Or.inr ⟨rest, inside, same⟩
  · cases rest with
    | nil => exact Or.inr ⟨[], by simpa using inside.symm, same.symm⟩
    | cons head rest =>
        obtain ⟨rfl, rfl⟩ := List.cons.inj same
        exact Or.inl ⟨rest, inside, rfl⟩

namespace DeclaredAfter

variable {prior first second events : List Event} {event : Event}

theorem nil (prior : List Event) : DeclaredAfter prior [] := by
  intro earlier event later split
  exact absurd split (by simp)

/-- Two lists are declared together when the second is declared after the first. -/
theorem append (left : DeclaredAfter prior first) (right : DeclaredAfter (prior ++ first) second) :
    DeclaredAfter prior (first ++ second) := by
  intro earlier event later split
  rcases split_of_append split with ⟨rest, inside, -⟩ | ⟨rest, rfl, inside⟩
  · exact left earlier event rest inside
  · rw [← List.append_assoc]
    exact right rest event later inside

/-- Events that refer to trees among the prior ones are declared, in any order. -/
theorem of_forall_mem (declared : ∀ event ∈ events, event.isDeclared prior = true) :
    DeclaredAfter prior events := by
  intro earlier event later split
  have kept := Event.isDeclared_append (declared event (by simp [split])) [] earlier
  rwa [List.nil_append] at kept

theorem cons (declared : event.isDeclared prior = true)
    (rest : DeclaredAfter (prior ++ [event]) events) : DeclaredAfter prior (event :: events) := by
  rw [← List.singleton_append]
  apply append _ rest
  apply of_forall_mem
  intro only member
  rw [List.mem_singleton.mp member]
  exact declared

/-- More events before a list take nothing away from it. -/
theorem prepend (declared : DeclaredAfter prior events) (before : List Event) :
    DeclaredAfter (before ++ prior) events := by
  intro earlier event later split
  have kept := Event.isDeclared_append (declared earlier event later split) before []
  rwa [List.append_nil, ← List.append_assoc] at kept

/-- The start of a declared list is declared. -/
theorem prefix_of_append (declared : DeclaredAfter prior (first ++ second)) :
    DeclaredAfter prior first := by
  intro earlier event later split
  exact declared earlier event (later ++ second) (by rw [split, List.append_assoc, List.cons_append])

end DeclaredAfter

end BranchCatalog
