import Mathlib.Logic.Function.Basic
import Mathlib.Tactic.Common

set_option autoImplicit false

namespace Hal9000.Lib

open Function (update)

-- A queue whose consumer sleeps until `signaled` is set: while there is something in it, the signal is set or
-- one of the parties that put something in still owes the signal.
def Attended {Item Party : Type} (queue : List Item) (signaled : Bool) (owes : Party -> Prop) : Prop :=
  queue ≠ [] -> signaled = true ∨ ∃ party, owes party

namespace Attended

variable {Item Party : Type} {queue fewer : List Item} {signaled : Bool} {owes owes' : Party -> Prop}

theorem empty : Attended ([] : List Item) signaled owes := fun nonempty => absurd rfl nonempty

theorem owed (party : Party) (debt : owes party) : Attended queue signaled owes := fun _ => .inr ⟨party, debt⟩

theorem set : Attended queue true owes := fun _ => .inl rfl

theorem longer (attended : Attended queue signaled owes) (nonempty : queue ≠ []) {more : List Item}
    (same : forall party, owes party -> owes' party) : Attended more signaled owes' :=
  fun _ => (attended nonempty).imp_right fun ⟨party, debt⟩ => ⟨party, same party debt⟩

theorem shorter (attended : Attended queue signaled owes) (some : fewer ≠ [] -> queue ≠ [])
    (same : forall party, owes party -> owes' party) : Attended fewer signaled owes' :=
  fun nonempty => (attended (some nonempty)).imp_right fun ⟨party, debt⟩ => ⟨party, same party debt⟩

end Attended

end Hal9000.Lib
