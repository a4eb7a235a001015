import Mathlib.Data.List.Forall2
import Wiring.Proofs.RecordReading

/-!
# Values up to the order of members

The members of an object come in one order when a value is built from a record, and in the order of
their keys when it has been read before.  No reader of records can tell the difference, so what a
reader does is stated for a value and all its reorderings at once.

## Main definitions

* `Value.Reordered` — two values that differ in the order of the members of objects only.
* `Reader.Reads` — the reader reads a value, in any order of its members.
* `RecordFields.Written` — the members that a record is written with.

## Main results

* `Value.Reordered.depth_eq` — the order of members does not change how deep a value is.
* `reads_list`, `reads_optional`, `reads_oneOf` — reading the common shapes.
* `fromValue_anything` — a flat object is read as it is, up to the order of its members.
* `reads_record` — **a record is read from what it is written as**, however that is ordered.
-/

namespace Wiring.Json

namespace Value

mutual

/-- Two values that differ in the order of the members of objects only, at any depth. -/
inductive Reordered : Value → Value → Prop where
  /-- Null is itself. -/
  | null : Reordered .null .null
  /-- So is a truth value. -/
  | bool (b : Bool) : Reordered (.bool b) (.bool b)
  /-- So is a number. -/
  | number (n : Number) : Reordered (.number n) (.number n)
  /-- So is a string. -/
  | string (s : String) : Reordered (.string s) (.string s)
  /-- The items of arrays keep their order. -/
  | array {items others : List Value} (hitems : List.Forall₂ Reordered items others) :
      Reordered (.array items) (.array others)
  /-- The members of objects need not. -/
  | object {members middle others : List (String × Value)}
      (hmembers : ReorderedMembers members middle) (hperm : middle.Perm others) :
      Reordered (.object members) (.object others)

/-- Members with the same keys in the same order, whose values are reordered. -/
inductive ReorderedMembers : List (String × Value) → List (String × Value) → Prop where
  /-- There is none. -/
  | nil : ReorderedMembers [] []
  /-- There is one more. -/
  | cons {key : String} {value other : Value} {rest others : List (String × Value)}
      (hvalue : Reordered value other) (hrest : ReorderedMembers rest others) :
      ReorderedMembers ((key, value) :: rest) ((key, other) :: others)

end

mutual

/-- Every value is a reordering of itself. -/
theorem Reordered.refl : ∀ value : Value, value.Reordered value
  | .null => .null
  | .bool b => .bool b
  | .number n => .number n
  | .string s => .string s
  | .array items => .array (Reordered.reflAll items)
  | .object members => .object (ReorderedMembers.refl members) (.refl members)

theorem Reordered.reflAll : ∀ items : List Value, List.Forall₂ Reordered items items
  | [] => .nil
  | item :: rest => .cons (Reordered.refl item) (Reordered.reflAll rest)

theorem ReorderedMembers.refl : ∀ members : List (String × Value),
    ReorderedMembers members members
  | [] => .nil
  | (_, value) :: rest => .cons (Reordered.refl value) (ReorderedMembers.refl rest)

end

theorem depthMembers_perm {members others : List (String × Value)} (h : members.Perm others) :
    depthMembers members = depthMembers others := by
  induction h with
  | nil => rfl
  | cons member _ ih =>
    obtain ⟨key, value⟩ := member
    rw [depthMembers, depthMembers, ih]
  | swap first second rest =>
    obtain ⟨key, value⟩ := first
    obtain ⟨other, old⟩ := second
    simp only [depthMembers]
    exact max_left_comm _ _ _
  | trans _ _ ihfirst ihsecond => rw [ihfirst, ihsecond]

mutual

/-- The order of members does not change how deep a value is. -/
theorem Reordered.depth_eq : ∀ {value other : Value}, value.Reordered other →
    other.depth = value.depth
  | .null, _, h => by cases h; rfl
  | .bool b, _, h => by cases h; rfl
  | .number n, _, h => by cases h; rfl
  | .string s, _, h => by cases h; rfl
  | .array items, _, h => by
      cases h with
      | array hitems => rw [depth, depth, Reordered.depthAll_eq hitems]
  | .object members, _, h => by
      cases h with
      | object hmembers hperm =>
        rw [depth, depth, ← depthMembers_perm hperm, ReorderedMembers.depth_eq hmembers]

theorem Reordered.depthAll_eq : ∀ {items others : List Value},
    List.Forall₂ Reordered items others → depthAll others = depthAll items
  | [], _, h => by cases h; rfl
  | item :: rest, _, h => by
      cases h with
      | cons hitem hrest =>
        rw [depthAll, depthAll, Reordered.depth_eq hitem, Reordered.depthAll_eq hrest]

theorem ReorderedMembers.depth_eq : ∀ {members others : List (String × Value)},
    ReorderedMembers members others → depthMembers others = depthMembers members
  | [], _, h => by cases h; rfl
  | (key, value) :: rest, _, h => by
      cases h with
      | cons hvalue hrest =>
        rw [depthMembers, depthMembers, Reordered.depth_eq hvalue, ReorderedMembers.depth_eq hrest]

end

/-- A value without arrays and objects has no other order. -/
theorem Reordered.eq_of_depth {value other : Value} (h : value.Reordered other)
    (hdepth : value.depth = 0) : other = value := by
  cases h with
  | array => exact absurd hdepth (Nat.succ_ne_zero _)
  | object => exact absurd hdepth (Nat.succ_ne_zero _)
  | _ => rfl

namespace ReorderedMembers

variable {members middle : List (String × Value)}

theorem map_fst (h : ReorderedMembers members middle) :
    middle.map Prod.fst = members.map Prod.fst := by
  induction members generalizing middle with
  | nil =>
    cases h
    rfl
  | cons member rest ih =>
    cases h with
    | cons _ hrest => rw [List.map_cons, List.map_cons, ih hrest]

theorem lookup (h : ReorderedMembers members middle) (key : String) :
    Option.Rel Reordered (members.lookup key) (middle.lookup key) := by
  induction members generalizing middle with
  | nil =>
    cases h
    exact .none
  | cons member rest ih =>
    cases h with
    | @cons name value other _ others hvalue hrest =>
      rw [FileTree.lookup_cons_eq_ite, FileTree.lookup_cons_eq_ite]
      by_cases hkey : key = name
      · rw [if_pos hkey, if_pos hkey]
        exact .some hvalue
      · rw [if_neg hkey, if_neg hkey]
        exact ih hrest

/-- The members in another order: no key comes twice there either, and each has a value exactly if
it had one before, and that is a reordering of it. -/
theorem lookup_of_perm {others : List (String × Value)} (h : ReorderedMembers members middle)
    (hperm : middle.Perm others) (hkeys : (members.map Prod.fst).Nodup) :
    (others.map Prod.fst).Nodup ∧
      ∀ key, Option.Rel Reordered (members.lookup key) (others.lookup key) := by
  have hmiddle : (middle.map Prod.fst).Nodup := by rwa [h.map_fst]
  have hothers : (others.map Prod.fst).Nodup := (hperm.map Prod.fst).nodup_iff.mp hmiddle
  refine ⟨hothers, fun key => ?_⟩
  have hlookup : others.lookup key = middle.lookup key := by
    refine Option.ext fun value => ?_
    rw [lookup_eq_some_iff_mem hothers, lookup_eq_some_iff_mem hmiddle, hperm.mem_iff]
  rw [hlookup]
  exact h.lookup key

end ReorderedMembers

theorem exists_of_rel_some {value : Value} {found : Option Value}
    (h : Option.Rel Reordered (some value) found) :
    ∃ other, found = some other ∧ value.Reordered other := by
  cases h with
  | some h => exact ⟨_, rfl, h⟩

theorem eq_none_of_rel_none {found : Option Value} (h : Option.Rel Reordered none found) :
    found = none := by
  cases h
  rfl

end Value

/-! ### Reading a value in any order -/

namespace Reader

variable {α : Type}

/-- The reader reads the value, in whatever order its members come. -/
def Reads (reader : Reader α) (value : Value) (a : α) : Prop :=
  ∀ other, value.Reordered other → reader.fromValue other = .ok a

theorem Reads.fromValue {reader : Reader α} {value : Value} {a : α} (h : reader.Reads value a) :
    reader.fromValue value = .ok a := h value (.refl value)

theorem reads_string (text : String) : Reads string (.string text) text := by
  intro other h
  cases h
  rfl

theorem reads_boolean (b : Bool) : Reads boolean (.bool b) b := by
  intro other h
  cases h
  rfl

/-- The name of a choice is read as what it stands for. -/
theorem reads_choice {choices : Choices α} {name : String} {a : α} (h : choices name = .ok a) :
    (choice choices).Reads (.string name) a := by
  intro other hother
  cases hother
  exact h

theorem reads_oneOf {table : List (String × α)} {name : String} {a : α}
    (h : table.lookup name = some a) : (oneOf table).Reads (.string name) a := by
  refine reads_choice ?_
  simp only [h]

theorem reads_optional_null (reader : Reader α) : (optional reader).Reads .null none := by
  intro other h
  cases h
  rfl

theorem reads_optional {reader : Reader α} {value : Value} {a : α} (h : reader.Reads value a)
    (hne : value ≠ .null) : (optional reader).Reads value (some a) := by
  intro other hother
  have hread := h other hother
  have hsome : (reader.fromValue other).map some = .ok (some a) := by
    rw [hread]
    rfl
  cases hother with
  | null => exact absurd rfl hne
  | _ => exact hsome

/-- A text that may be missing, as a string or null. -/
theorem reads_ofString? (text : Option String) :
    (optional string).Reads (.ofString? text) text := by
  cases text with
  | none => exact reads_optional_null string
  | some text => exact reads_optional (reads_string text) nofun

/-- The items of an array are read as they are alone. -/
theorem fromValue_list {reader : Reader α} (hroomy : reader.Roomy) {values : List Value}
    {found : List α}
    (h : List.Forall₂ (fun value a => reader.fromValue value = .ok a) values found) :
    (list reader).fromValue (.array values) = .ok found := by
  have hitems : ∀ room, Value.depthAll values ≤ room →
      items reader .value room .closed (Draft.ofItems values) = .ok found := by
    intro room hroom
    induction h with
    | nil => rfl
    | @cons value a values found hvalue _ ih =>
      rw [Value.depthAll, Nat.max_le] at hroom
      rw [Draft.ofItems, items, hroomy.read hvalue hroom.1]
      dsimp only
      rw [ih hroom.2]
      rfl
  exact hitems _ le_rfl

theorem reads_list {reader : Reader α} (hroomy : reader.Roomy) {values : List Value}
    {found : List α} (h : List.Forall₂ reader.Reads values found) :
    (list reader).Reads (.array values) found := by
  intro other hother
  cases hother with
  | @array _ others hitems =>
    refine fromValue_list hroomy ?_
    clear hroomy
    induction h generalizing others with
    | nil =>
      cases hitems
      exact .nil
    | cons hvalue _ ih =>
      cases hitems with
      | cons hitem hrest => exact .cons (hvalue _ hitem) (ih hrest)

theorem reads_strings (texts : List String) :
    (list string).Reads (.strings texts) texts := by
  refine reads_list roomy_string ?_
  rw [List.forall₂_map_left_iff]
  exact List.forall₂_same.mpr fun text _ => reads_string text

end Reader

/-! ### Objects without depth -/

/-- A value without arrays and objects is its own draft's value. -/
theorem value_ofValue_of_depth {value : Value} (h : value.depth = 0) (room : Nat) :
    (Draft.ofValue value).value room = .ok value := by
  cases value with
  | array items => exact absurd h (Nat.succ_ne_zero _)
  | object members => exact absurd h (Nat.succ_ne_zero _)
  | _ => cases room <;> rfl

/-- Sets members one after the other. -/
def setMembers : List (String × Value) → List (String × Value) → List (String × Value)
  | [], known => known
  | (key, value) :: rest, known => setMembers rest (setMember key value known)

theorem valueMembers_of_depth {room : Nat} : ∀ {members known : List (String × Value)},
    Value.depthMembers members = 0 →
      Draft.valueMembers room .closed known (Draft.ofMembers members) =
        .ok (setMembers members known)
  | [], _, _ => rfl
  | (key, value) :: rest, known, h => by
      rw [Value.depthMembers] at h
      have hvalue := value_ofValue_of_depth (by omega : value.depth = 0) room
      rw [Draft.ofMembers, Draft.valueMembers, hvalue]
      exact valueMembers_of_depth (by omega)

theorem increasing_setMembers : ∀ {members known : List (String × Value)}, Increasing known →
    Increasing (setMembers members known)
  | [], _, h => h
  | (key, value) :: rest, known, h => by
      rw [setMembers]
      exact increasing_setMembers (increasing_setMember key value h)

theorem lookup_setMembers {key : String} : ∀ {members known : List (String × Value)},
    (members.map Prod.fst).Nodup →
      (setMembers members known).lookup key = (members.lookup key).or (known.lookup key)
  | [], known, _ => rfl
  | (first, value) :: rest, known, h => by
      rw [List.map_cons, List.nodup_cons] at h
      rw [setMembers, lookup_setMembers h.2, lookup_setMember, FileTree.lookup_cons_eq_ite]
      by_cases hkey : key = first
      · have hnone : rest.lookup key = none := by
          rw [hkey]
          exact not_not.mp fun hne => h.1 (lookup_ne_none_iff.mp hne)
        rw [if_pos hkey, if_pos hkey, hnone]
        rfl
      · rw [if_neg hkey, if_neg hkey]

/-- An object that holds no arrays and objects is read as it is, up to the order of its members. -/
theorem Reader.fromValue_anything {members : List (String × Value)}
    (hdepth : Value.depthMembers members = 0) (hkeys : (members.map Prod.fst).Nodup) :
    ∃ sorted, Reader.anything.fromValue (.object members) = .ok (.object sorted) ∧
      (sorted.map Prod.fst).Nodup ∧ ∀ key, sorted.lookup key = members.lookup key := by
  refine ⟨setMembers members [], ?_, ?_, fun key => ?_⟩
  · have hvalue : (Draft.ofValue (.object members)).value (Value.object members).depth =
        .ok (.object (setMembers members [])) := by
      rw [Draft.ofValue, Value.depth, Draft.value, valueMembers_of_depth hdepth]
      rfl
    change ((Draft.ofValue (.object members)).value _).lift = _
    rw [hvalue]
    rfl
  · have hincreasing : Increasing (setMembers members []) :=
      increasing_setMembers List.Pairwise.nil
    rw [List.Nodup, List.pairwise_map]
    refine hincreasing.imp fun {first second} hlt hsame => ?_
    rw [hsame] at hlt
    exact String.lt_irrefl _ hlt
  · rw [lookup_setMembers hkeys, List.lookup_nil, Option.or_none]

/-! ### Records -/

/-- A field is written among the members, or it is left out and has a value for that. -/
def RecordField.Written {α : Type} (members : List (String × Value)) (field : RecordField α)
    (a : α) : Prop :=
  match members.lookup field.name with
  | some value => field.read.Reads value a
  | none => field.absent = some a

namespace RecordField

variable {α : Type} {members : List (String × Value)} {field : RecordField α} {a : α}

@[simp] theorem name_needed (name : String) (read : Reader α) :
    (needed name read).name = name := rfl

@[simp] theorem name_orElse (name : String) (read : Reader α) (absent : α) :
    (orElse name read absent).name = name := rfl

theorem written_of_lookup {value : Value} (hlookup : members.lookup field.name = some value)
    (hread : field.read.Reads value a) : field.Written members a := by
  rw [Written, hlookup]
  exact hread

theorem written_of_absent (hlookup : members.lookup field.name = none)
    (habsent : field.absent = some a) : field.Written members a := by
  rw [Written, hlookup]
  exact habsent

/-- What is written among some members is held by their reorderings. -/
theorem Written.held {others : List (String × Value)} (h : field.Written members a)
    (hlookup : ∀ key, Option.Rel Value.Reordered (members.lookup key) (others.lookup key)) :
    field.Held others a := by
  have hkey := hlookup field.name
  rw [Written] at h
  rw [Held]
  cases hmember : members.lookup field.name with
  | none =>
    rw [hmember] at hkey h
    rw [Value.eq_none_of_rel_none hkey]
    exact h
  | some value =>
    rw [hmember] at hkey h
    obtain ⟨other, hother, hvalue⟩ := Value.exists_of_rel_some hkey
    rw [hother]
    exact h other hvalue

end RecordField

namespace RecordFields

/-- The members that a record is written with. -/
def Written (members : List (String × Value)) :
    (αs : List Type) → RecordFields αs → Row αs → Prop
  | [], _, _ => True
  | _ :: αs, (field, fields), (a, row) => field.Written members a ∧ Written members αs fields row

theorem Written.hold {members others : List (String × Value)}
    (hlookup : ∀ key, Option.Rel Value.Reordered (members.lookup key) (others.lookup key)) :
    ∀ {αs : List Type} {fields : RecordFields αs} {row : Row αs},
      Written members αs fields row → Hold others αs fields row
  | [], _, _, _ => trivial
  | _ :: _, (_, _), (_, _), ⟨hfield, hrest⟩ => ⟨hfield.held hlookup, hrest.hold hlookup⟩

end RecordFields

/-- **A record is read from what it is written as**, whatever the order of the members is. -/
theorem Reader.reads_record {β : Type} {αs : List Type} {name : String} {build : Row αs → β}
    {fields : RecordFields αs} {members : List (String × Value)} {row : Row αs}
    (hroomy : RecordFields.Roomy αs fields) (hnames : (RecordFields.names αs fields).Nodup)
    (hkeys : (members.map Prod.fst).Nodup) (hwritten : RecordFields.Written members αs fields row) :
    (Reader.record name build fields).Reads (.object members) (build row) := by
  intro other hother
  cases hother with
  | object hmembers hperm =>
    obtain ⟨hothers, hlookup⟩ := hmembers.lookup_of_perm hperm hkeys
    exact fromValue_record hroomy hnames hothers (hwritten.hold hlookup)

end Wiring.Json
