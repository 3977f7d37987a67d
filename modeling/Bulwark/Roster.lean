/-!
Rosters: entries found by name.

A roster is a list of names with what they stand for. Entries keep the order in
which their names were first entered, and a later entry of a name replaces the
earlier one in place.
-/

namespace Bulwark

/-- The name of a command, a call or a ticket. Names are equal iff their
characters are. -/
abbrev Name := String

abbrev Roster (α : Type) := List (Name × α)

/-- What the items of a list weigh together. -/
def weigh {α : Type} (weight : α → Nat) : List α → Nat
  | [] => 0
  | a :: rest => weight a + weigh weight rest

@[simp] theorem weigh_nil {α : Type} (weight : α → Nat) : weigh weight [] = 0 := rfl

@[simp] theorem weigh_cons {α : Type} (weight : α → Nat) (a : α) (rest : List α) :
    weigh weight (a :: rest) = weight a + weigh weight rest := rfl

@[simp] theorem weigh_append {α : Type} (weight : α → Nat) (before after : List α) :
    weigh weight (before ++ after) = weigh weight before + weigh weight after := by
  induction before with
  | nil => simp
  | cons a rest ih => simp [ih, Nat.add_assoc]

namespace Roster

variable {α : Type}

def get? (r : Roster α) (name : Name) : Option α :=
  match r with
  | [] => none
  | (n, a) :: rest => if n = name then some a else get? rest name

def put (r : Roster α) (name : Name) (a : α) : Roster α :=
  match r with
  | [] => [(name, a)]
  | (n, b) :: rest => if n = name then (n, a) :: rest else (n, b) :: put rest name a

def erase (r : Roster α) (name : Name) : Roster α := r.filter fun entry => entry.1 ≠ name

def has (r : Roster α) (name : Name) : Bool := (r.get? name).isSome

def names (r : Roster α) : List Name := r.map (·.1)

@[simp] theorem get?_nil (name : Name) : get? ([] : Roster α) name = none := rfl

theorem get?_put (r : Roster α) (name other : Name) (a : α) :
    (r.put name a).get? other = if name = other then some a else r.get? other := by
  induction r with
  | nil => simp [put, get?]
  | cons entry rest ih =>
      obtain ⟨n, b⟩ := entry
      simp only [put]
      split
      · next same => subst same; simp only [get?]; split <;> rfl
      · next differ =>
          simp only [get?, ih]
          by_cases found : n = other
          · subst found
            simp [Ne.symm differ]
          · simp [found]

@[simp] theorem get?_put_self (r : Roster α) (name : Name) (a : α) :
    (r.put name a).get? name = some a := by simp [get?_put]

theorem get?_put_of_ne (r : Roster α) {name other : Name} (a : α) (differ : name ≠ other) :
    (r.put name a).get? other = r.get? other := by simp [get?_put, differ]

theorem get?_erase (r : Roster α) (name other : Name) :
    (r.erase name).get? other = if name = other then none else r.get? other := by
  induction r with
  | nil => simp [erase, get?]
  | cons entry rest ih =>
      obtain ⟨n, b⟩ := entry
      simp only [erase, List.filter_cons] at ih ⊢
      by_cases same : n = name
      · subst same
        simp only [ne_eq, not_true_eq_false, decide_false, Bool.false_eq_true, if_false, ih, get?]
        split <;> rfl
      · simp only [ne_eq, same, not_false_eq_true, decide_true, if_true, get?, ih]
        by_cases found : n = other
        · subst found
          simp [Ne.symm same]
        · simp [found]

/-! ### Entries as members of the list -/

/-- What is found is there. -/
theorem mem_of_get? {r : Roster α} {name : Name} {a : α} (found : r.get? name = some a) :
    (name, a) ∈ r := by
  induction r with
  | nil => simp at found
  | cons entry rest ih =>
      obtain ⟨n, b⟩ := entry
      simp only [get?] at found
      split at found
      · next same =>
          obtain rfl := Option.some.inj found
          simp [same]
      · exact List.mem_cons_of_mem _ (ih found)

theorem get?_eq_none_iff {r : Roster α} {name : Name} : r.get? name = none ↔ name ∉ r.names := by
  induction r with
  | nil => simp [names]
  | cons entry rest ih =>
      obtain ⟨n, b⟩ := entry
      by_cases same : n = name
      · simp [get?, names, same]
      · simp only [get?, if_neg same, ih, names, List.map_cons, List.mem_cons, not_or]
        exact ⟨fun absent => ⟨Ne.symm same, absent⟩, And.right⟩

/-- On a roster without repeated names, every entry is found by its name. -/
theorem get?_of_mem {r : Roster α} (distinct : r.names.Nodup) {name : Name} {a : α}
    (member : (name, a) ∈ r) : r.get? name = some a := by
  induction r with
  | nil => simp at member
  | cons entry rest ih =>
      obtain ⟨n, b⟩ := entry
      simp only [names, List.map_cons, List.nodup_cons] at distinct
      rcases List.mem_cons.mp member with first | later
      · cases first
        simp [get?]
      · have differ : n ≠ name := by
          rintro rfl
          exact distinct.1 (List.mem_map.mpr ⟨_, later, rfl⟩)
        simp only [get?, if_neg differ]
        exact ih distinct.2 later

/-- Entering an absent name adds an entry at the end. -/
theorem put_of_get?_eq_none {r : Roster α} {name : Name} (a : α) (absent : r.get? name = none) :
    r.put name a = r ++ [(name, a)] := by
  induction r with
  | nil => rfl
  | cons entry rest ih =>
      obtain ⟨n, b⟩ := entry
      simp only [get?] at absent
      split at absent
      · simp at absent
      · next differ => simp [put, differ, ih absent]

/-- Entering a present name replaces its entry in place. -/
theorem put_of_get?_eq_some {r : Roster α} {name : Name} {old : α} (a : α)
    (found : r.get? name = some old) :
    ∃ before after, r = before ++ (name, old) :: after ∧
      r.put name a = before ++ (name, a) :: after := by
  induction r with
  | nil => simp at found
  | cons entry rest ih =>
      obtain ⟨n, b⟩ := entry
      simp only [get?] at found
      split at found
      · next same =>
          obtain rfl := Option.some.inj found
          exact ⟨[], rest, by simp [same], by simp [put, same]⟩
      · next differ =>
          obtain ⟨before, after, split, replaced⟩ := ih found
          exact ⟨(n, b) :: before, after, by simp [split], by simp [put, differ, replaced]⟩

/-- Of two entries of one name, the later one stays. -/
theorem put_put (r : Roster α) (name : Name) (a b : α) :
    (r.put name a).put name b = r.put name b := by
  induction r with
  | nil => simp [put]
  | cons entry rest ih =>
      obtain ⟨n, c⟩ := entry
      by_cases same : n = name
      · simp [put, same]
      · simp [put, same, ih]

/-- No name is put twice. -/
theorem nodup_names_put {r : Roster α} (distinct : r.names.Nodup) (name : Name) (a : α) :
    (r.put name a).names.Nodup := by
  cases found : r.get? name with
  | none =>
      have absent := get?_eq_none_iff.mp found
      rw [put_of_get?_eq_none a found]
      simp only [names, List.map_append, List.map_cons, List.map_nil] at distinct absent ⊢
      refine List.nodup_append.mpr ⟨distinct, by simp, fun n member other last => ?_⟩
      obtain rfl := List.mem_singleton.mp last
      rintro rfl
      exact absent member
  | some old =>
      obtain ⟨before, after, split, replaced⟩ := put_of_get?_eq_some a found
      rw [replaced]
      simpa [names, split] using distinct

/-- What replacing an entry does to the weight of the roster. -/
theorem weigh_put {r : Roster α} {name : Name} {old : α} (weight : Name × α → Nat) (a : α)
    (found : r.get? name = some old) :
    weigh weight (r.put name a) + weight (name, old) = weigh weight r + weight (name, a) := by
  obtain ⟨before, after, split, replaced⟩ := put_of_get?_eq_some a found
  rw [replaced, split]
  simp only [weigh_append, weigh_cons]
  omega

/-- What taking a name off the roster does to the number of its entries of a kind. -/
theorem countP_erase {r : Roster α} (distinct : r.names.Nodup) {name : Name} {a : α}
    (kind : Name × α → Bool) (found : r.get? name = some a) :
    (r.erase name).countP kind + (if kind (name, a) then 1 else 0) = r.countP kind := by
  induction r with
  | nil => simp at found
  | cons entry rest ih =>
      obtain ⟨n, b⟩ := entry
      simp only [names, List.map_cons, List.nodup_cons] at distinct
      by_cases same : n = name
      · subst same
        simp only [get?, if_true] at found
        obtain rfl := Option.some.inj found
        have untouched : erase rest n = rest := by
          refine List.filter_eq_self.mpr fun other member => ?_
          simp only [ne_eq, decide_not, Bool.not_eq_true', decide_eq_false_iff_not]
          rintro rfl
          exact distinct.1 (List.mem_map_of_mem member)
        have shrunk : erase ((n, b) :: rest) n = rest := by
          simpa [erase, List.filter_cons] using untouched
        rw [shrunk, List.countP_cons]
      · simp only [get?, if_neg same] at found
        have later := ih distinct.2 found
        simp only [erase, ne_eq] at later
        simp only [erase, ne_eq, List.filter_cons, same, not_false_eq_true, decide_true, if_true,
          List.countP_cons]
        omega

theorem nodup_names_erase {r : Roster α} (distinct : r.names.Nodup) (name : Name) :
    (r.erase name).names.Nodup :=
  distinct.sublist (List.filter_sublist.map _)

end Roster

end Bulwark
