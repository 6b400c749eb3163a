import BranchCatalog.Command.Run
import BranchCatalog.Proofs.Failure

namespace BranchCatalog.Action

variable {Value Next : Type}

/-- From a disk, a step leads to answers and disks that go together, whatever the console is like. -/
def Leads (step : Action Value) (disk : Disk) (after : Except CommandFault Value → Disk → Prop) : Prop :=
  ∀ session, session.disk = disk → after (step.run.run session).1 (step.run.run session).2.disk

/-- A step only prints when it always succeeds and leaves the disk as it is. -/
def Prints (step : Action Unit) : Prop :=
  ∀ session, ∃ left, step.run.run session = (.ok (), left) ∧ left.disk = session.disk

section Prints

/-- Steps that only print do so one after another as well. -/
theorem prints_bind {first second : Action Unit} (one : Prints first) (other : Prints second) :
    Prints (first >>= fun _ => second) := by
  intro session
  obtain ⟨between, ran, same⟩ := one session
  obtain ⟨left, ranOn, alike⟩ := other between
  refine ⟨left, ?_, alike.trans same⟩
  rw [run_bind, ran]
  exact ranOn

/-- A quiet console leaves out what only tells how things are going. -/
theorem run_tell (line : Theme → List Printed) (session : Session) :
    (tell line).run.run session =
      (if session.quiet then pure () else print (line session.theme) : Action Unit).run.run session :=
  rfl

theorem prints_tell (line : Theme → List Printed) : Prints (tell line) := by
  intro session
  rw [run_tell]
  split
  · exact ⟨session, rfl, rfl⟩
  · exact ⟨_, rfl, rfl⟩

theorem prints_warn (text : Text) : Prints (warn text) :=
  fun _ => ⟨_, rfl, rfl⟩

theorem prints_hush (wanted : Bool) : Prints (hush wanted) :=
  fun _ => ⟨_, rfl, rfl⟩

theorem prints_sectionTitle (title : Text) : Prints (sectionTitle title) :=
  prints_bind (prints_tell _) (prints_tell _)

theorem prints_tellRows (rows : Nat) (output : Path) : Prints (tellRows rows output) := by
  rw [tellRows]
  exact prints_tell _

theorem prints_tellCounts (counts : LoadCounts) : Prints (tellCounts counts) :=
  prints_bind (prints_tell _) (prints_tell _)

end Prints

section Leads

variable {disk : Disk} {after : Except CommandFault Value → Disk → Prop}
  {afterNext : Except CommandFault Next → Disk → Prop}

/-- An operation on the disk goes on from the disk that it leaves, unless it fails. -/
theorem leads_onDisk_bind {operation : Disk → Except CommandFault Value × Disk}
    {next : Value → Action Next}
    (failed : ∀ fault left, operation disk = (.error fault, left) → afterNext (.error fault) left)
    (answered : ∀ value left, operation disk = (.ok value, left) → Leads (next value) left afterNext) :
    Leads (onDisk operation >>= next) disk afterNext := by
  rintro session rfl
  rw [run_bind, run_onDisk]
  cases ran : operation session.disk with
  | mk answer left =>
      cases answer with
      | error fault => exact failed fault left ran
      | ok value => exact answered value left ran { session with disk := left } rfl

theorem leads_ask_bind {question : Disk → Except CommandFault Value} {next : Value → Action Next}
    (failed : ∀ fault, question disk = .error fault → afterNext (.error fault) disk)
    (answered : ∀ value, question disk = .ok value → Leads (next value) disk afterNext) :
    Leads (ask question >>= next) disk afterNext := by
  refine leads_onDisk_bind ?_ ?_
  · intro fault left ran
    obtain ⟨asked, rfl⟩ := Prod.mk.inj ran
    exact failed fault asked
  · intro value left ran
    obtain ⟨asked, rfl⟩ := Prod.mk.inj ran
    exact answered value asked

/-- A step that only prints can stand anywhere. -/
theorem leads_prints_bind {step : Action Unit} {next : Action Next} (prints : Prints step)
    (rest : Leads next disk afterNext) : Leads (step >>= fun _ => next) disk afterNext := by
  rintro session rfl
  obtain ⟨left, ran, same⟩ := prints session
  rw [run_bind, ran]
  exact rest left same

theorem leads_of_prints {step : Action Unit} {after : Except CommandFault Unit → Disk → Prop}
    (prints : Prints step) (holds : after (.ok ()) disk) : Leads step disk after := by
  rintro session rfl
  obtain ⟨left, ran, same⟩ := prints session
  rw [ran]
  show after (.ok ()) left.disk
  rwa [same]

/-- A guard ends a command with its fault, or lets it go on. -/
theorem leads_guard {condition : Prop} [Decidable condition] {fault : CommandFault}
    {rest : Unit → Action Value} (stopped : condition → after (.error fault) disk)
    (others : ¬condition → Leads (rest ()) disk after) :
    Leads (if condition then throw fault >>= rest else rest ()) disk after := by
  by_cases holds : condition
  · rw [if_pos holds]
    rintro session rfl
    exact stopped holds
  · rw [if_neg holds]
    exact others holds

/-- Printing something first, or not, does not matter to what comes after. -/
theorem leads_when_prints {condition : Prop} [Decidable condition] {step : Action Unit}
    {rest : Unit → Action Value} (prints : Prints step) (others : Leads (rest ()) disk after) :
    Leads (if condition then step >>= rest else rest ()) disk after := by
  split
  · exact leads_prints_bind prints others
  · exact others

end Leads

end BranchCatalog.Action
