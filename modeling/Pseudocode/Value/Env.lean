import Pseudocode.Value.Basic

/-!
# Environments

The variables of a running program: a finite map from names to values, kept as a list in ascending
order of names, so that equal maps are equal lists and a variable table needs no sorting. Names are
ordered by their code points.
-/

namespace Pseudocode

/-- A name and its value. -/
structure Binding where
  name : String
  value : Value

/-- Inserts a binding at its place, replacing one of the same name. -/
def insertBinding (name : String) (value : Value) : List Binding → List Binding
  | [] => [⟨name, value⟩]
  | b :: rest =>
    if name < b.name then ⟨name, value⟩ :: b :: rest
    else if name = b.name then ⟨name, value⟩ :: rest
    else b :: insertBinding name value rest

theorem mem_insertBinding {name : String} {value : Value} {bs : List Binding} {b : Binding}
    (h : b ∈ insertBinding name value bs) : b = ⟨name, value⟩ ∨ b ∈ bs := by
  induction bs with
  | nil => simpa [insertBinding] using h
  | cons a rest ih =>
    simp only [insertBinding] at h
    split at h
    · simpa using h
    · split at h
      · rcases List.mem_cons.1 h with h | h
        · exact .inl h
        · exact .inr (List.mem_cons_of_mem _ h)
      · rcases List.mem_cons.1 h with h | h
        · exact .inr (h ▸ List.mem_cons_self)
        · exact (ih h).imp id (List.mem_cons_of_mem _)

/-- The order of an environment: names ascend strictly, so no name occurs twice. -/
def Ascending (bs : List Binding) : Prop :=
  bs.Pairwise fun a b => a.name < b.name

theorem ascending_insertBinding {bs : List Binding} (h : Ascending bs) (name : String)
    (value : Value) : Ascending (insertBinding name value bs) := by
  induction bs with
  | nil => simp [insertBinding, Ascending]
  | cons a rest ih =>
    obtain ⟨ha, hrest⟩ := List.pairwise_cons.1 h
    simp only [insertBinding]
    split
    · rename_i hlt
      refine List.pairwise_cons.2 ⟨fun b hb => ?_, h⟩
      rcases List.mem_cons.1 hb with rfl | hb
      · exact hlt
      · exact String.lt_trans hlt (ha b hb)
    · split
      · rename_i heq
        exact List.pairwise_cons.2 ⟨fun b hb => by simpa [heq] using ha b hb, hrest⟩
      · rename_i hnlt hne
        refine List.pairwise_cons.2 ⟨fun b hb => ?_, ih hrest⟩
        rcases mem_insertBinding hb with rfl | hb
        · rcases String.le_total a.name name with hle | hle
          · exact Classical.byContradiction fun hn =>
              hne (String.le_antisymm hn hle)
          · exact absurd (String.le_antisymm hle hnlt) hne
        · exact ha b hb

/-- The binding that was inserted is the one found under its name. -/
theorem find?_insertBinding (name : String) (value : Value) (bs : List Binding) :
    (insertBinding name value bs).find? (fun b => b.name = name) = some ⟨name, value⟩ := by
  induction bs with
  | nil => simp [insertBinding]
  | cons a rest ih =>
    simp only [insertBinding]
    split
    · simp
    · split
      · simp
      · rename_i other
        have skipped : ¬a.name = name := fun same => other same.symm
        simpa [List.find?_cons, skipped] using ih

/-- A finite map from names to values. -/
structure Env where
  bindings : List Binding
  ascending : Ascending bindings

namespace Env

def empty : Env := ⟨[], List.Pairwise.nil⟩

instance : Inhabited Env := ⟨empty⟩

/-- The value of a name, if it has one. -/
def get? (env : Env) (name : String) : Option Value :=
  (env.bindings.find? fun b => b.name = name).map Binding.value

/-- Gives a name a value. -/
def set (env : Env) (name : String) (value : Value) : Env :=
  ⟨insertBinding name value env.bindings, ascending_insertBinding env.ascending name value⟩

@[simp] theorem get?_set_self (env : Env) (name : String) (value : Value) :
    (env.set name value).get? name = some value := by
  rw [get?, set, find?_insertBinding, Option.map_some]

/-- The environment that a list of assignments leaves. -/
def ofList (bs : List (String × Value)) : Env :=
  bs.foldl (fun env (name, value) => env.set name value) empty

/-- The names and their values, in the order of the names. -/
def entries (env : Env) : List (String × Value) :=
  env.bindings.map fun b => (b.name, b.value)

/-- The bindings of a map whose entries are listed in some order, sorted by name. -/
def sortedBindings (entries : List (String × Value)) : List Binding :=
  (ofList entries).bindings

/-- The number of names that have a value. -/
def size (env : Env) : Nat :=
  env.bindings.length

end Env

end Pseudocode
