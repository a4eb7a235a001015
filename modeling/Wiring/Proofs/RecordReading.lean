import Wiring.Json.Record
import Wiring.Proofs.IndexText

/-!
# What readers read

A reader is told how many arrays and objects may still lie inside one another.  More room never
changes what it reads, so a value is read inside a larger one as it is read alone.  And a record is
read from the members of an object by their keys: the order of the members does not count, and
neither do members that are no fields.

## Main definitions

* `Reader.ReadBy`, `Reader.Roomy` — with more room the same is read.
* `RecordField.Held`, `RecordFields.Hold` — the members of an object hold the values of the fields.
* `RecordFields.Filled` — the slots of a record after some members.

## Main results

* `roomy_anything`, `readBy_list`, `readBy_record` — the readers of the common shapes are roomy.
* `fromValue_record` — **a record is read from its members**, in any order.
-/

namespace Wiring.Json

/-! ### More room -/

namespace Reader

variable {α β : Type}

/-- What the reader reads, the other reads too, and also with more room. -/
def ReadBy (reader other : Reader α) : Prop :=
  ∀ medium room more draft a, room ≤ more → reader medium room draft = .ok a →
    other medium more draft = .ok a

/-- With more room the reader reads the same. -/
def Roomy (reader : Reader α) : Prop := reader.ReadBy reader

/-- With the room that a value needs, and with any more, a roomy reader reads it. -/
theorem Roomy.read {reader : Reader α} (h : reader.Roomy) {value : Value} {a : α} {room : Nat}
    (hread : reader.fromValue value = .ok a) (hroom : value.depth ≤ room) :
    reader .value room (.ofValue value) = .ok a :=
  h _ _ _ _ _ hroom hread

theorem roomy_string : Roomy string := by
  intro medium room more draft a _ h
  cases draft <;> exact h

theorem roomy_boolean : Roomy boolean := by
  intro medium room more draft a _ h
  cases draft <;> exact h

/-- A mismatch is never a success. -/
theorem mismatch_ne_ok {draft : Draft} {expected : Expected} {a : α} :
    draft.mismatch expected ≠ .ok a := by
  unfold Draft.mismatch
  cases draft.found <;> exact fun h => nomatch h

theorem unit_room (medium : Medium) (room more : Nat) (draft : Draft) :
    unit medium room draft = unit medium more draft := by
  cases draft <;> rfl

/-- A choice has nothing inside that could lie deep. -/
theorem roomy_choice (choices : Choices α) : Roomy (choice choices) := by
  intro medium room more draft a hle h
  cases draft with
  | object members ending =>
    cases medium with
    | value =>
      unfold choice choiceByOnlyKey at h ⊢
      simpa only [unit_room .value more room] using h
    | text =>
      cases room with
      | zero => cases h
      | succ room =>
        obtain ⟨more, rfl⟩ : ∃ n, more = n + 1 := Nat.exists_eq_add_of_le' (by omega)
        unfold choice choiceByKey at h ⊢
        simpa only [unit_room .text more room] using h
  | _ => cases medium <;> exact h

theorem roomy_oneOf (table : List (String × α)) : Roomy (oneOf table) := roomy_choice _

theorem readBy_optional {reader other : Reader α} (h : reader.ReadBy other) :
    (optional reader).ReadBy (optional other) := by
  intro medium room more draft a hle hread
  have hsome : ∀ result : Except Fault α, result.map some = .ok a →
      ∃ b, result = .ok b ∧ some b = a := by
    intro result hresult
    cases result with
    | error fault => cases hresult
    | ok b => exact ⟨b, rfl, Except.ok.inj hresult⟩
  cases draft with
  | null => exact hread
  | _ =>
    obtain ⟨b, hb, rfl⟩ := hsome _ hread
    exact congrArg (Except.map some) (h _ _ _ _ _ hle hb)

theorem readBy_items {reader other : Reader α} (h : reader.ReadBy other) {medium : Medium}
    {room more : Nat} (hle : room ≤ more) {ending : ArrayEnd} :
    ∀ {drafts : List Draft} {found : List α}, items reader medium room ending drafts = .ok found →
      items other medium more ending drafts = .ok found
  | [], _, hread => hread
  | item :: rest, found, hread => by
      unfold items at hread ⊢
      cases hitem : reader medium room item with
      | error fault => rw [hitem] at hread; cases hread
      | ok first =>
        rw [hitem] at hread
        rw [h _ _ _ _ _ hle hitem]
        dsimp only at hread ⊢
        cases hrest : items reader medium room ending rest with
        | error fault => rw [hrest] at hread; cases hread
        | ok others =>
          rw [hrest] at hread
          rw [readBy_items h hle hrest]
          exact hread

theorem readBy_list {reader other : Reader α} (h : reader.ReadBy other) :
    (list reader).ReadBy (list other) := by
  intro medium room more draft a hle hread
  cases draft with
  | array drafts ending =>
    cases room with
    | zero => cases hread
    | succ room =>
      obtain ⟨more, rfl⟩ : ∃ n, more = n + 1 := Nat.exists_eq_add_of_le' (by omega)
      exact readBy_items h (by omega) hread
  | _ =>
    -- anything else is no array, with much room or little
    cases room <;> dsimp only [list] at hread <;> exact absurd hread mismatch_ne_ok

end Reader

namespace Draft

mutual

/-- With more room a draft has the same value. -/
theorem value_of_le : ∀ (draft : Draft) {room more : Nat} {v : Value}, room ≤ more →
    draft.value room = .ok v → draft.value more = .ok v
  | .null, _, _, _, _, h => by simpa only [value] using h
  | .bool b, _, _, _, _, h => by simpa only [value] using h
  | .number n, _, _, _, _, h => by simpa only [value] using h
  | .string s, _, _, _, _, h => by simpa only [value] using h
  | .array items ending, 0, _, _, _, h => by simp [value] at h
  | .object members ending, 0, _, _, _, h => by simp [value] at h
  | .array items ending, room + 1, more, v, hle, h => by
      obtain ⟨more, rfl⟩ : ∃ n, more = n + 1 := Nat.exists_eq_add_of_le' (by omega)
      rw [value] at h ⊢
      cases hitems : valueItems room ending items with
      | error fault => rw [hitems] at h; cases h
      | ok values => rw [valueItems_of_le items (by omega) hitems, ← hitems, h]
  | .object members ending, room + 1, more, v, hle, h => by
      obtain ⟨more, rfl⟩ : ∃ n, more = n + 1 := Nat.exists_eq_add_of_le' (by omega)
      rw [value] at h ⊢
      cases hmembers : valueMembers room ending [] members with
      | error fault => rw [hmembers] at h; cases h
      | ok values => rw [valueMembers_of_le members (by omega) hmembers, ← hmembers, h]
  | .broken stop, _, _, _, _, h => by simp [value] at h

/-- With more room the items of an array have the same values. -/
theorem valueItems_of_le : ∀ (items : List Draft) {room more : Nat} {ending : ArrayEnd}
    {values : List Value}, room ≤ more → valueItems room ending items = .ok values →
      valueItems more ending items = .ok values
  | [], _, _, _, _, _, h => by simpa only [valueItems] using h
  | item :: rest, room, more, ending, values, hle, h => by
      rw [valueItems] at h ⊢
      cases hitem : value room item with
      | error fault => rw [hitem] at h; cases h
      | ok first =>
        cases hrest : valueItems room ending rest with
        | error fault => rw [hitem, hrest] at h; cases h
        | ok others =>
          rw [hitem, hrest] at h
          rw [value_of_le item hle hitem, valueItems_of_le rest hle hrest]
          exact h

/-- With more room the members of an object have the same values. -/
theorem valueMembers_of_le : ∀ (members : List (Reading String × Draft)) {room more : Nat}
    {ending : ObjectEnd} {known values : List (String × Value)}, room ≤ more →
      valueMembers room ending known members = .ok values →
      valueMembers more ending known members = .ok values
  | [], _, _, _, _, _, _, h => by simpa only [valueMembers] using h
  | (.error fault, member) :: rest, _, _, _, _, _, _, h => by
      rw [valueMembers] at h
      cases h
  | (.ok name, member) :: rest, room, more, ending, known, values, hle, h => by
      rw [valueMembers] at h ⊢
      cases hmember : value room member with
      | error fault => rw [hmember] at h; cases h
      | ok content =>
        rw [hmember] at h
        rw [value_of_le member hle hmember]
        exact valueMembers_of_le rest hle h

end

end Draft

theorem Reader.roomy_anything : Reader.Roomy Reader.anything := by
  intro medium room more draft a hle h
  change (draft.value room).lift = .ok a at h
  change (draft.value more).lift = .ok a
  cases hvalue : draft.value room with
  | error fault => rw [hvalue] at h; cases h
  | ok v => rwa [draft.value_of_le hle hvalue, ← hvalue]

/-! ### Records with more room -/

namespace RecordFields

/-- The other fields have the same names and the same values where they are missing, and read what
these fields read. -/
def ReadBy : (αs : List Type) → RecordFields αs → RecordFields αs → Prop
  | [], _, _ => True
  | _ :: αs, (field, fields), (other, others) =>
      field.name = other.name ∧ field.absent = other.absent ∧ field.read.ReadBy other.read ∧
        ReadBy αs fields others

/-- With more room the fields read the same. -/
def Roomy (αs : List Type) (fields : RecordFields αs) : Prop := ReadBy αs fields fields

section

variable {α : Type} {αs : List Type} (medium : Medium) (room : Nat) (field : RecordField α)
  (fields : RecordFields αs) (slot : Option α) (slots : Slots αs)

theorem offer_cons (key : String) (member : Draft) :
    offer medium room key member (α :: αs) (field, fields) (slot, slots) =
      if key = field.name then
        match slot with
        | some _ => .error (.duplicateField key)
        | none => (field.read medium room member).map fun a => (some a, slots)
      else (offer medium room key member αs fields slots).map fun filled => (slot, filled) := rfl

theorem finish_cons :
    finish (α :: αs) (field, fields) (slot, slots) =
      match slot.or field.absent with
      | none => .error (.missingField field.name)
      | some a => (finish αs fields slots).map fun row => (a, row) := rfl

theorem take_cons_nil (ending : ArrayEnd) (tooFew tooMany : Fault) :
    take medium room ending tooFew tooMany (α :: αs) (field, fields) [] =
      match ending.check with
      | .error fault => .error (.badSyntax fault)
      | .ok () =>
          match field.absent with
          | none => .error tooFew
          | some a =>
              (take medium room ending tooFew tooMany αs fields []).map fun row => (a, row) := rfl

theorem take_cons_cons (ending : ArrayEnd) (tooFew tooMany : Fault) (item : Draft)
    (left : List Draft) :
    take medium room ending tooFew tooMany (α :: αs) (field, fields) (item :: left) =
      match field.read medium room item with
      | .error fault => .error fault
      | .ok a =>
          (take medium room ending tooFew tooMany αs fields left).map fun row => (a, row) := rfl

end

theorem offer_readBy {medium : Medium} {room more : Nat} (hle : room ≤ more) {key : String}
    {member : Draft} : ∀ {αs : List Type} {fields others : RecordFields αs}
      {slots filled : Slots αs}, ReadBy αs fields others →
      offer medium room key member αs fields slots = .ok filled →
      offer medium more key member αs others slots = .ok filled
  | [], _, _, _, _, _, h => h
  | _ :: αs, (field, fields), (other, others), (slot, slots), filled,
      ⟨hname, _, hread, hrest⟩, h => by
      rw [offer_cons] at h ⊢
      rw [← hname]
      by_cases hkey : key = field.name
      · rw [if_pos hkey] at h ⊢
        cases slot with
        | some a => cases h
        | none =>
          cases hfield : field.read medium room member with
          | error fault => rw [hfield] at h; cases h
          | ok a =>
            rw [hfield] at h
            rw [hread _ _ _ _ _ hle hfield]
            exact h
      · rw [if_neg hkey] at h ⊢
        cases hoffer : offer medium room key member αs fields slots with
        | error fault => rw [hoffer] at h; cases h
        | ok rest =>
          rw [hoffer] at h
          rw [offer_readBy hle hrest hoffer]
          exact h

theorem offerAll_readBy {medium : Medium} {room more : Nat} (hle : room ≤ more)
    {ending : ObjectEnd} {αs : List Type} {fields others : RecordFields αs}
    (hfields : ReadBy αs fields others) : ∀ {members : List (Reading String × Draft)}
      {slots filled : Slots αs}, offerAll medium room ending fields slots members = .ok filled →
      offerAll medium more ending others slots members = .ok filled
  | [], _, _, h => h
  | (.error fault, member) :: rest, _, _, h => by cases h
  | (.ok name, member) :: rest, slots, filled, h => by
      unfold offerAll at h ⊢
      dsimp only at h ⊢
      cases hoffer : offer medium room name member αs fields slots with
      | error fault => rw [hoffer] at h; cases h
      | ok next =>
        rw [hoffer] at h
        rw [offer_readBy hle hfields hoffer]
        exact offerAll_readBy hle hfields h

theorem finish_readBy : ∀ {αs : List Type} {fields others : RecordFields αs} {slots : Slots αs}
    {row : Row αs}, ReadBy αs fields others → finish αs fields slots = .ok row →
      finish αs others slots = .ok row
  | [], _, _, _, _, _, h => h
  | _ :: αs, (field, fields), (other, others), (slot, slots), row, ⟨_, habsent, _, hrest⟩, h => by
      rw [finish_cons] at h ⊢
      rw [← habsent]
      cases hvalue : slot.or field.absent with
      | none => rw [hvalue] at h; cases h
      | some a =>
        rw [hvalue] at h
        dsimp only at h ⊢
        cases hfinish : finish αs fields slots with
        | error fault => rw [hfinish] at h; cases h
        | ok rest =>
          rw [hfinish] at h
          rw [finish_readBy hrest hfinish]
          exact h

theorem take_readBy {medium : Medium} {room more : Nat} (hle : room ≤ more) {ending : ArrayEnd}
    {tooFew tooMany : Fault} : ∀ {αs : List Type} {fields others : RecordFields αs}
      {left : List Draft} {row : Row αs}, ReadBy αs fields others →
      take medium room ending tooFew tooMany αs fields left = .ok row →
      take medium more ending tooFew tooMany αs others left = .ok row
  | [], _, _, _, _, _, h => h
  | _ :: αs, (field, fields), (other, others), [], row, ⟨_, habsent, _, hrest⟩, h => by
      rw [take_cons_nil] at h ⊢
      rw [← habsent]
      cases hending : ending.check with
      | error fault => rw [hending] at h; cases h
      | ok _ =>
        rw [hending] at h
        dsimp only at h ⊢
        cases hfield : field.absent with
        | none => rw [hfield] at h; cases h
        | some a =>
          rw [hfield] at h
          dsimp only at h ⊢
          cases htake : take medium room ending tooFew tooMany αs fields [] with
          | error fault => rw [htake] at h; cases h
          | ok taken =>
            rw [htake] at h
            rw [take_readBy hle hrest htake]
            exact h
  | _ :: αs, (field, fields), (other, others), item :: left, row, ⟨_, _, hread, hrest⟩, h => by
      rw [take_cons_cons] at h ⊢
      cases hfield : field.read medium room item with
      | error fault => rw [hfield] at h; cases h
      | ok a =>
        rw [hfield] at h
        rw [hread _ _ _ _ _ hle hfield]
        dsimp only at h ⊢
        cases htake : take medium room ending tooFew tooMany αs fields left with
        | error fault => rw [htake] at h; cases h
        | ok taken =>
          rw [htake] at h
          rw [take_readBy hle hrest htake]
          exact h

end RecordFields

/-- A record of fields that read the same with more room reads the same with more room. -/
theorem Reader.readBy_record {β : Type} {αs : List Type} {name : String} {build : Row αs → β}
    {fields others : RecordFields αs} (h : RecordFields.ReadBy αs fields others) :
    (Reader.record name build fields).ReadBy (Reader.record name build others) := by
  intro medium room more draft b hle hread
  cases draft with
  | array items ending =>
    cases room with
    | zero => cases hread
    | succ room =>
      obtain ⟨more, rfl⟩ : ∃ n, more = n + 1 := Nat.exists_eq_add_of_le' (by omega)
      unfold Reader.record at hread ⊢
      dsimp only at hread ⊢
      generalize Fault.tooFewItems items.length name αs.length = tooFew at hread ⊢
      generalize Fault.tooManyItems items.length = tooMany at hread ⊢
      cases htake : RecordFields.take medium room ending tooFew tooMany αs fields items with
      | error fault => rw [htake] at hread; cases hread
      | ok row =>
        rw [htake] at hread
        rw [RecordFields.take_readBy (by omega) h htake]
        exact hread
  | object members ending =>
    cases room with
    | zero => cases hread
    | succ room =>
      obtain ⟨more, rfl⟩ : ∃ n, more = n + 1 := Nat.exists_eq_add_of_le' (by omega)
      unfold Reader.record at hread ⊢
      dsimp only at hread ⊢
      cases hoffer : RecordFields.offerAll medium room ending fields (.blank αs) members with
      | error fault => rw [hoffer] at hread; cases hread
      | ok slots =>
        rw [hoffer] at hread
        rw [RecordFields.offerAll_readBy (by omega) h hoffer]
        dsimp only at hread ⊢
        cases hfinish : RecordFields.finish αs fields slots with
        | error fault => rw [hfinish] at hread; cases hread
        | ok row =>
          rw [hfinish] at hread
          rw [RecordFields.finish_readBy h hfinish]
          exact hread
  | _ =>
    cases room <;> dsimp only [Reader.record] at hread <;> exact absurd hread Reader.mismatch_ne_ok

/-! ### Drafts of values -/

namespace Draft

mutual

/-- A value is passed over without a fault. -/
theorem passOver_ofValue : ∀ v : Value, (ofValue v).passOver = .ok ()
  | .null => by rw [ofValue, passOver]
  | .bool b => by rw [ofValue, passOver]
  | .number n => by rw [ofValue, passOver]
  | .string s => by rw [ofValue, passOver]
  | .array items => by rw [ofValue, passOver, passOverItems_ofItems items]
  | .object members => by rw [ofValue, passOver, passOverMembers_ofMembers members]

/-- So are items. -/
theorem passOverItems_ofItems : ∀ items : List Value,
    passOverItems .closed (ofItems items) = .ok ()
  | [] => by rw [ofItems, passOverItems]; rfl
  | item :: rest => by
      rw [ofItems, passOverItems, passOver_ofValue item]
      exact passOverItems_ofItems rest

/-- And members. -/
theorem passOverMembers_ofMembers : ∀ members : List (String × Value),
    passOverMembers .closed (ofMembers members) = .ok ()
  | [] => by rw [ofMembers, passOverMembers]; rfl
  | (key, member) :: rest => by
      rw [ofMembers, passOverMembers, passOver_ofValue member]
      exact passOverMembers_ofMembers rest

end

end Draft

theorem Value.depth_le_depthMembers {key : String} {value : Value} :
    ∀ {members : List (String × Value)}, (key, value) ∈ members →
      value.depth ≤ depthMembers members
  | (other, first) :: rest, h => by
      rw [depthMembers]
      rcases List.mem_cons.mp h with heq | hrest
      · obtain ⟨-, rfl⟩ := Prod.mk.inj heq
        exact le_max_left _ _
      · exact le_trans (depth_le_depthMembers hrest) (le_max_right _ _)

theorem Value.depth_le_depthAll {value : Value} :
    ∀ {items : List Value}, value ∈ items → value.depth ≤ depthAll items
  | first :: rest, h => by
      rw [depthAll]
      rcases List.mem_cons.mp h with rfl | hrest
      · exact le_max_left _ _
      · exact le_trans (depth_le_depthAll hrest) (le_max_right _ _)

/-! ### Members by their keys -/

section

variable {α : Type} {members : List (String × α)} {key : String}

/-- If no key comes twice, the value of a key is that of the only member with it. -/
theorem lookup_eq_some_iff_mem (hkeys : (members.map Prod.fst).Nodup) {value : α} :
    members.lookup key = some value ↔ (key, value) ∈ members := by
  induction members with
  | nil => simp
  | cons member rest ih =>
    obtain ⟨first, old⟩ := member
    rw [List.map_cons, List.nodup_cons] at hkeys
    rw [FileTree.lookup_cons_eq_ite, List.mem_cons, Prod.mk.injEq]
    by_cases hkey : key = first
    · subst hkey
      have hnot : (key, value) ∉ rest := fun hmem => hkeys.1 (List.mem_map.mpr ⟨_, hmem, rfl⟩)
      simp [hnot, eq_comm]
    · simp [hkey, ih hkeys.2]

theorem lookup_ne_none_iff : members.lookup key ≠ none ↔ key ∈ members.map Prod.fst := by
  induction members with
  | nil => simp
  | cons member rest ih =>
    obtain ⟨first, old⟩ := member
    rw [FileTree.lookup_cons_eq_ite, List.map_cons, List.mem_cons]
    by_cases hkey : key = first
    · simp [hkey]
    · rw [if_neg hkey, ih, or_iff_right hkey]

end

/-! ### Records from members -/

/-- The members hold the value of a field: it is read from the value of the key of its name, and if
there is none, it may be missing. -/
def RecordField.Held {α : Type} (members : List (String × Value)) (field : RecordField α) (a : α) :
    Prop :=
  match members.lookup field.name with
  | some value => field.read.fromValue value = .ok a
  | none => field.absent = some a

theorem RecordField.held_of_lookup {α : Type} {members : List (String × Value)}
    {field : RecordField α} {a : α} {value : Value}
    (hlookup : members.lookup field.name = some value)
    (hread : field.read.fromValue value = .ok a) : field.Held members a := by
  rw [Held, hlookup]
  exact hread

namespace RecordFields

variable {members : List (String × Value)}

/-- The names of the fields. -/
def names : (αs : List Type) → RecordFields αs → List String
  | [], _ => []
  | _ :: αs, (field, fields) => field.name :: names αs fields

/-- The members hold the values of all fields. -/
def Hold (members : List (String × Value)) :
    (αs : List Type) → RecordFields αs → Row αs → Prop
  | [], _, _ => True
  | _ :: αs, (field, fields), (a, row) => field.Held members a ∧ Hold members αs fields row

/-- The slots have the values of those fields whose names have been seen. -/
def Filled (seen : List String) : (αs : List Type) → RecordFields αs → Row αs → Slots αs → Prop
  | [], _, _, _ => True
  | _ :: αs, (field, fields), (a, row), (slot, slots) =>
      slot = (if field.name ∈ seen then some a else none) ∧ Filled seen αs fields row slots

theorem filled_blank : ∀ {αs : List Type} {fields : RecordFields αs} {row : Row αs},
    Filled [] αs fields row (.blank αs)
  | [], _, _ => trivial
  | _ :: _, (_, _), (_, _) => ⟨(if_neg List.not_mem_nil).symm, filled_blank⟩

/-- A name that is no field makes no difference. -/
theorem Filled.cons_of_not_mem {seen : List String} {key : String} :
    ∀ {αs : List Type} {fields : RecordFields αs} {row : Row αs} {slots : Slots αs},
      Filled seen αs fields row slots → key ∉ names αs fields →
      Filled (key :: seen) αs fields row slots
  | [], _, _, _, _, _ => trivial
  | _ :: αs, (field, fields), (a, row), (slot, slots), ⟨hslot, hrest⟩, hkey => by
      rw [names, List.mem_cons, not_or] at hkey
      refine ⟨?_, hrest.cons_of_not_mem hkey.2⟩
      rw [hslot]
      simp only [List.mem_cons, Ne.symm hkey.1, false_or]

/-- One more member fills the slot of its field and changes no other. -/
theorem offer_filled {seen : List String} {key : String} {value : Value} {room : Nat}
    (hmember : members.lookup key = some value) (hnew : key ∉ seen)
    (hroom : value.depth ≤ room) :
    ∀ {αs : List Type} {fields : RecordFields αs} {row : Row αs} {slots : Slots αs},
      Roomy αs fields → (names αs fields).Nodup → Hold members αs fields row →
      Filled seen αs fields row slots →
      ∃ filled, offer .value room key (.ofValue value) αs fields slots = .ok filled ∧
        Filled (key :: seen) αs fields row filled
  | [], _, _, slots, _, _, _, _ => by
      refine ⟨slots, ?_, trivial⟩
      rw [offer, Draft.passOver_ofValue]
      rfl
  | _ :: αs, (field, fields), (a, row), (slot, slots), ⟨_, _, hread, hroomy⟩, hnames,
      ⟨hfield, hhold⟩, ⟨hslot, hfilled⟩ => by
      rw [names, List.nodup_cons] at hnames
      rw [offer_cons]
      by_cases hkey : key = field.name
      · -- the first member of this name, so the slot is still empty
        subst hkey
        rw [RecordField.Held, hmember] at hfield
        rw [if_neg hnew] at hslot
        subst hslot
        have hvalue : field.read .value room (.ofValue value) = .ok a :=
          hread _ _ _ _ _ hroom hfield
        refine ⟨(some a, slots), ?_, ?_, hfilled.cons_of_not_mem hnames.1⟩
        · rw [if_pos rfl, hvalue]
          rfl
        · rw [if_pos List.mem_cons_self]
      · obtain ⟨filled, hoffer, hmore⟩ :=
          offer_filled hmember hnew hroom hroomy hnames.2 hhold hfilled
        refine ⟨(slot, filled), ?_, ?_, hmore⟩
        · rw [if_neg hkey, hoffer]
          rfl
        · rw [hslot]
          simp only [List.mem_cons, Ne.symm hkey, false_or]

/-- Members with different keys fill the slots of their fields. -/
theorem offerAll_filled {αs : List Type} {fields : RecordFields αs} {row : Row αs} {room : Nat}
    (hroomy : Roomy αs fields) (hnames : (names αs fields).Nodup)
    (hhold : Hold members αs fields row) :
    ∀ {rest : List (String × Value)} {seen : List String} {slots : Slots αs},
      (∀ member ∈ rest, members.lookup member.1 = some member.2 ∧ member.1 ∉ seen ∧
        member.2.depth ≤ room) → (rest.map Prod.fst).Nodup → Filled seen αs fields row slots →
      ∃ filled, offerAll .value room .closed fields slots (Draft.ofMembers rest) = .ok filled ∧
        Filled ((rest.map Prod.fst).reverse ++ seen) αs fields row filled
  | [], seen, slots, _, _, hfilled => ⟨slots, rfl, hfilled⟩
  | (key, value) :: rest, seen, slots, hrest, hnodup, hfilled => by
      rw [List.forall_mem_cons] at hrest
      rw [List.map_cons, List.nodup_cons] at hnodup
      obtain ⟨⟨hmember, hnew, hroom⟩, hrest⟩ := hrest
      obtain ⟨next, hoffer, hnext⟩ :=
        offer_filled hmember hnew hroom hroomy hnames hhold hfilled
      have hlater : ∀ member ∈ rest, members.lookup member.1 = some member.2 ∧
          member.1 ∉ key :: seen ∧ member.2.depth ≤ room := by
        intro member hmem
        obtain ⟨hlookup, hseen, hdepth⟩ := hrest member hmem
        refine ⟨hlookup, ?_, hdepth⟩
        rw [List.mem_cons, not_or]
        exact ⟨fun hsame => hnodup.1 (List.mem_map.mpr ⟨member, hmem, hsame⟩), hseen⟩
      obtain ⟨filled, hall, hdone⟩ := offerAll_filled hroomy hnames hhold hlater hnodup.2 hnext
      refine ⟨filled, ?_, ?_⟩
      · rw [Draft.ofMembers, offerAll, hoffer]
        exact hall
      · rwa [List.map_cons, List.reverse_cons, List.append_assoc, List.singleton_append]

/-- After all members the record is there. -/
theorem finish_filled {seen : List String} (hseen : ∀ name, name ∈ seen ↔
    members.lookup name ≠ none) : ∀ {αs : List Type} {fields : RecordFields αs} {row : Row αs}
      {slots : Slots αs}, Hold members αs fields row → Filled seen αs fields row slots →
      finish αs fields slots = .ok row
  | [], _, (), _, _, _ => rfl
  | _ :: αs, (field, fields), (a, row), (slot, slots), ⟨hfield, hhold⟩, ⟨hslot, hfilled⟩ => by
      have hvalue : slot.or field.absent = some a := by
        rw [hslot]
        by_cases hname : field.name ∈ seen
        · rw [if_pos hname]
          rfl
        · have hnone : members.lookup field.name = none :=
            not_not.mp fun hne => hname ((hseen _).mpr hne)
          rw [RecordField.Held, hnone] at hfield
          rw [if_neg hname, Option.none_or]
          exact hfield
      rw [finish_cons, hvalue]
      dsimp only
      rw [finish_filled hseen hhold hfilled]
      rfl

end RecordFields

/-- **A record is read from its members.**  It is enough that no key comes twice, that the fields
have different names and read the same with more room, and that the members hold the values: their
order does not count, and neither does any other member. -/
theorem fromValue_record {β : Type} {αs : List Type} {name : String} {build : Row αs → β}
    {fields : RecordFields αs} {members : List (String × Value)} {row : Row αs}
    (hroomy : RecordFields.Roomy αs fields) (hnames : (RecordFields.names αs fields).Nodup)
    (hkeys : (members.map Prod.fst).Nodup) (hhold : RecordFields.Hold members αs fields row) :
    (Reader.record name build fields).fromValue (.object members) = .ok (build row) := by
  have hmembers : ∀ member ∈ members, members.lookup member.1 = some member.2 ∧
      member.1 ∉ [] ∧ member.2.depth ≤ Value.depthMembers members := by
    intro member hmem
    exact ⟨(lookup_eq_some_iff_mem hkeys).mpr hmem, List.not_mem_nil,
      Value.depth_le_depthMembers hmem⟩
  obtain ⟨slots, hoffer, hfilled⟩ :=
    RecordFields.offerAll_filled hroomy hnames hhold hmembers hkeys RecordFields.filled_blank
  have hseen : ∀ name, name ∈ (members.map Prod.fst).reverse ++ [] ↔
      members.lookup name ≠ none := by
    intro name
    rw [List.append_nil, List.mem_reverse, lookup_ne_none_iff]
  unfold Reader.fromValue
  rw [Draft.ofValue, Value.depth, Reader.record, hoffer]
  dsimp only
  rw [RecordFields.finish_filled hseen hhold hfilled]
  rfl

end Wiring.Json
