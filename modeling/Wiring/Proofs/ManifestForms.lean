import Wiring.Manifest
import Wiring.Proofs.ReorderedValues

/-!
# Properties written into a manifest

Types, owners, requests and properties are read back from the JSON they are written as: members
that are left out have the values they were left out for, and names that stand for the same role
are read as one.  So properties survive the way through a manifest, in which each is a symbol that
carries the marker, whatever other symbols stand between them.

## Main definitions

* `markedSymbol` — the symbol of a property that carries a marker.
* `Carries` — the symbols of a manifest in which some properties carry a marker.

## Main results

* `DeclaredType.reads_toJson`, `Owner.reads_toJson`, `Request.reads_toJson`,
  `Property.reads_toJson` — what is written is read back.
* `ManifestSymbol.exists_of_form` — a marked symbol is read as one with its property.
* `Manifest.discover_of_carries` — **discovery finds the properties of a manifest**, and no others.
-/

namespace Wiring

open Json

/-! ### Types -/

namespace DeclaredType

/-- With more levels and more room the same types are read. -/
theorem readBy_readerWithin : ∀ {levels more : Nat}, levels ≤ more →
    (readerWithin levels).ReadBy (readerWithin more)
  | 0, _, _ => fun _ _ _ _ _ _ h => nomatch h
  | levels + 1, more, hle => by
      obtain ⟨more, rfl⟩ : ∃ n, more = n + 1 := Nat.exists_eq_add_of_le' (by omega)
      have harguments := readBy_readerWithin (Nat.le_of_succ_le_succ hle)
      rw [readerWithin, readerWithin]
      exact Reader.readBy_record
        ⟨rfl, rfl, Reader.roomy_string, rfl, rfl, Reader.roomy_boolean, rfl, rfl,
          Reader.readBy_list harguments, rfl, rfl, Reader.readBy_list Reader.roomy_string, trivial⟩

theorem roomy_reader : Reader.Roomy reader := by
  intro medium room more draft type hle h
  exact readBy_readerWithin (Nat.succ_le_succ hle) _ _ _ _ _ hle h

/-- The members that a type is written with. -/
def members (name : String) (nullable : Bool) (arguments : List Value)
    (supertypes : List String) : List (String × Value) :=
  [("qualified_name", .string name), ("nullable", .bool nullable)] ++
    (match arguments with
      | [] => []
      | written => [("arguments", .array written)]) ++
    (match supertypes with
      | [] => []
      | names => [("supertypes", .strings names)])

section

variable (name : String) (nullable : Bool) (arguments : List Value) (supertypes : List String)

theorem toJson_eq (arguments : List DeclaredType) :
    toJson ⟨name, nullable, arguments, supertypes⟩ =
      .object (members name nullable (toJsonAll arguments) supertypes) := by
  cases arguments <;> cases supertypes <;> simp [toJson, toJsonAll, members]

theorem nodup_members : ((members name nullable arguments supertypes).map Prod.fst).Nodup := by
  cases arguments <;> cases supertypes <;> simp [members]

theorem lookup_name : (members name nullable arguments supertypes).lookup "qualified_name" =
    some (.string name) := by
  simp [members]

theorem lookup_nullable : (members name nullable arguments supertypes).lookup "nullable" =
    some (.bool nullable) := by
  simp [members, FileTree.lookup_cons_eq_ite]

theorem lookup_arguments : (members name nullable arguments supertypes).lookup "arguments" =
    if arguments = [] then none else some (.array arguments) := by
  cases arguments <;> cases supertypes <;> simp [members, FileTree.lookup_cons_eq_ite]

theorem lookup_supertypes : (members name nullable arguments supertypes).lookup "supertypes" =
    if supertypes = [] then none else some (.strings supertypes) := by
  cases arguments <;> cases supertypes <;> simp [members, FileTree.lookup_cons_eq_ite]

end

mutual

/-- A type is read back as long as there are levels enough for its arguments. -/
theorem reads_readerWithin : ∀ (type : DeclaredType) {levels : Nat},
    type.toJson.depth ≤ levels → (readerWithin levels).Reads type.toJson type
  | ⟨name, nullable, arguments, supertypes⟩, levels, hlevels => by
      rw [toJson_eq] at hlevels ⊢
      rw [Value.depth] at hlevels
      obtain ⟨levels, rfl⟩ : ∃ n, levels = n + 1 := Nat.exists_eq_add_of_le' (by omega)
      have hroomy := readBy_readerWithin (le_refl levels)
      -- the arguments lie deeper than the type, so one level less is enough for them
      have harguments : RecordField.Written (members name nullable (toJsonAll arguments) supertypes)
          (.orElse "arguments" (.list (readerWithin levels)) []) arguments := by
        have hlookup := lookup_arguments name nullable (toJsonAll arguments) supertypes
        cases arguments with
        | nil => exact RecordField.written_of_absent hlookup rfl
        | cons first rest =>
          rw [if_neg (by rw [toJsonAll]; exact List.cons_ne_nil _ _)] at hlookup
          have hmem := (lookup_eq_some_iff_mem (nodup_members ..)).mp hlookup
          have hdepth := Value.depth_le_depthMembers hmem
          rw [Value.depth] at hdepth
          refine RecordField.written_of_lookup hlookup (Reader.reads_list hroomy ?_)
          refine reads_readerWithinAll (first :: rest) fun value hvalue => ?_
          have hitem := Value.depth_le_depthAll hvalue
          omega
      have hsupertypes : RecordField.Written
          (members name nullable (toJsonAll arguments) supertypes)
          (.orElse "supertypes" (.list .string) []) supertypes := by
        have hlookup := lookup_supertypes name nullable (toJsonAll arguments) supertypes
        cases supertypes with
        | nil => exact RecordField.written_of_absent hlookup rfl
        | cons first rest => exact RecordField.written_of_lookup hlookup (Reader.reads_strings _)
      rw [readerWithin]
      exact @Reader.reads_record DeclaredType [String, Bool, List DeclaredType, List String] _ ofRow
        _ _ (name, nullable, arguments, supertypes, ())
        ⟨rfl, rfl, Reader.roomy_string, rfl, rfl, Reader.roomy_boolean, rfl,
          rfl, Reader.readBy_list hroomy, rfl, rfl, Reader.readBy_list Reader.roomy_string, trivial⟩
        (by simp [RecordFields.names]) (nodup_members ..)
        ⟨RecordField.written_of_lookup (lookup_name ..) (Reader.reads_string name),
          RecordField.written_of_lookup (lookup_nullable ..) (Reader.reads_boolean nullable),
          harguments, hsupertypes, trivial⟩

/-- So are several types. -/
theorem reads_readerWithinAll : ∀ (types : List DeclaredType) {levels : Nat},
    (∀ value ∈ toJsonAll types, value.depth ≤ levels) →
      List.Forall₂ (readerWithin levels).Reads (toJsonAll types) types
  | [], _, _ => .nil
  | type :: rest, levels, hlevels => by
      rw [toJsonAll, List.forall_mem_cons] at hlevels
      exact .cons (reads_readerWithin type hlevels.1) (reads_readerWithinAll rest hlevels.2)

end

/-- A type is read back from what it is written as. -/
theorem reads_toJson (type : DeclaredType) : reader.Reads type.toJson type := by
  intro other hother
  have hdepth : type.toJson.depth ≤ other.depth + 1 := by
    rw [hother.depth_eq]
    exact Nat.le_succ _
  exact reads_readerWithin type hdepth other hother

theorem toJson_ne_null (type : DeclaredType) : type.toJson ≠ .null := by
  obtain ⟨name, nullable, arguments, supertypes⟩ := type
  rw [toJson_eq]
  exact nofun

end DeclaredType

/-! ### Owners -/

/-- The name that is written for a role stands for it. -/
theorem Role.lookup_name (role : Role) : Role.names.lookup role.name = some role := by
  cases role <;> decide

/-- A text that is left out if it is missing. -/
theorem written_optionalMember {members : List (String × Value)} {key : String}
    {text : Option String} (h : members.lookup key = text.map .string) :
    RecordField.Written members (.orElse key (.optional .string) none) text := by
  cases text with
  | none => exact RecordField.written_of_absent h rfl
  | some text =>
    exact RecordField.written_of_lookup h (Reader.reads_optional (Reader.reads_string text) nofun)

namespace Owner

theorem roomy_reader : Reader.Roomy reader :=
  Reader.readBy_record ⟨rfl, rfl, Reader.roomy_string, rfl, rfl,
    Reader.readBy_optional Reader.roomy_string, rfl, rfl, Reader.roomy_oneOf _, rfl, rfl,
    Reader.readBy_optional Reader.roomy_string, trivial⟩

/-- An owner is read back from what it is written as. -/
theorem reads_toJson (owner : Owner) : reader.Reads owner.toJson owner := by
  obtain ⟨name, package, role, file⟩ := owner
  refine @Reader.reads_record Owner [String, Option String, Role, Option String] _ ofRow _ _
    (name, package, role, file, ())
    ⟨rfl, rfl, Reader.roomy_string, rfl, rfl, Reader.readBy_optional Reader.roomy_string, rfl, rfl,
      Reader.roomy_oneOf _, rfl, rfl, Reader.readBy_optional Reader.roomy_string, trivial⟩
    (by decide) ?_
    ⟨RecordField.written_of_lookup rfl (Reader.reads_string name), written_optionalMember ?_,
      RecordField.written_of_lookup ?_ (Reader.reads_oneOf role.lookup_name),
      written_optionalMember ?_, trivial⟩
  · cases package <;> cases file <;> simp [optionalMember]
  all_goals cases package <;> cases file <;> simp [optionalMember, FileTree.lookup_cons_eq_ite]

theorem toJson_ne_null (owner : Owner) : owner.toJson ≠ .null := nofun

end Owner

/-! ### Requests -/

namespace Request

theorem roomy_reader : Reader.Roomy reader :=
  Reader.readBy_record ⟨rfl, rfl, Reader.readBy_optional Reader.roomy_string, rfl, rfl,
    Reader.roomy_boolean, rfl, rfl, Reader.readBy_optional Reader.roomy_string, trivial⟩

/-- A request is read from any members with its name, its requirement and its description. -/
theorem reads_of_lookup {members : List (String × Value)} (request : Request)
    (hkeys : (members.map Prod.fst).Nodup)
    (hname : members.lookup "name" = some (.ofString? request.name))
    (hrequired : members.lookup "required" = some (.bool request.required))
    (hdescription : members.lookup "desc" = some (.ofString? request.description)) :
    reader.Reads (.object members) request := by
  obtain ⟨name, required, description⟩ := request
  exact @Reader.reads_record Request [Option String, Bool, Option String] _ ofRow _ _
    (name, required, description, ())
    ⟨rfl, rfl, Reader.readBy_optional Reader.roomy_string, rfl, rfl, Reader.roomy_boolean, rfl, rfl,
      Reader.readBy_optional Reader.roomy_string, trivial⟩
    (by decide) hkeys
    ⟨RecordField.written_of_lookup hname (Reader.reads_ofString? name),
      RecordField.written_of_lookup hrequired (Reader.reads_boolean required),
      RecordField.written_of_lookup hdescription (Reader.reads_ofString? description), trivial⟩

theorem depth_ofString? (text : Option String) : (Value.ofString? text).depth = 0 := by
  cases text <;> rfl

/-- The members that a request is written with. -/
def members (request : Request) : List (String × Value) :=
  [("name", .ofString? request.name), ("required", .bool request.required),
    ("desc", .ofString? request.description)]

theorem nodup_members (request : Request) : (request.members.map Prod.fst).Nodup := by
  simp [members]

theorem depthMembers_members (request : Request) : Value.depthMembers request.members = 0 := by
  obtain ⟨name, required, description⟩ := request
  cases name <;> cases description <;> rfl

/-- A request is read back from what it is written as. -/
theorem reads_toJson (request : Request) : reader.Reads request.toJson request :=
  request.reads_of_lookup request.nodup_members rfl rfl rfl

end Request

/-! ### Properties -/

/-- The name that is written for a visibility stands for it. -/
theorem Visibility.lookup_name (visibility : Visibility) :
    Visibility.names.lookup visibility.name = some visibility := by
  cases visibility <;> decide

namespace Property

/-- An owner is read back, and so is none. -/
theorem reads_ownerToJson (owner : Option Owner) :
    (Reader.optional Owner.reader).Reads (ownerToJson owner) owner := by
  cases owner with
  | none => exact Reader.reads_optional_null Owner.reader
  | some owner => exact Reader.reads_optional owner.reads_toJson owner.toJson_ne_null

/-- A property is read back from what it is written as. -/
theorem reads_toJson (property : Property) : reader.Reads property.toJson property := by
  obtain ⟨name, type, visibility, owner, request⟩ := property
  exact @Reader.reads_record Property [String, DeclaredType, Visibility, Option Owner, Request] _
    ofRow _ _ (name, type, visibility, owner, request, ())
    ⟨rfl, rfl, Reader.roomy_string, rfl, rfl, DeclaredType.roomy_reader, rfl, rfl,
      Reader.roomy_oneOf _, rfl, rfl, Reader.readBy_optional Owner.roomy_reader, rfl, rfl,
      Request.roomy_reader, trivial⟩
    (by decide) (by simp)
    ⟨RecordField.written_of_lookup rfl (Reader.reads_string name),
      RecordField.written_of_lookup rfl type.reads_toJson,
      RecordField.written_of_lookup rfl (Reader.reads_oneOf visibility.lookup_name),
      RecordField.written_of_lookup rfl (reads_ownerToJson owner),
      RecordField.written_of_lookup rfl request.reads_toJson, trivial⟩

end Property

/-! ### Marks -/

theorem Mark.roomy_reader : Reader.Roomy Mark.reader :=
  Reader.readBy_record ⟨rfl, rfl, Reader.roomy_string, rfl, rfl, Reader.roomy_anything, trivial⟩

/-- The mark with a request for arguments. -/
def Mark.form (marker : String) (request : Request) : Value :=
  .object [("qualified_name", .string marker), ("arguments", request.toJson)]

/-- A mark asks for what its arguments are written as.  They are put into the order of their keys
when the mark is read, and looked at later. -/
theorem Mark.exists_of_form {marker : String} {request : Request} {value : Value}
    (h : (Mark.form marker request).Reordered value) :
    ∃ mark, Mark.reader.fromValue value = .ok mark ∧ mark.name = marker ∧
      Manifest.requestOf mark.arguments = .ok request := by
  cases h with
  | object hmembers hperm =>
    obtain ⟨hkeys, hlookup⟩ := hmembers.lookup_of_perm hperm (by simp)
    obtain ⟨given, hgiven, hrequest⟩ := Value.exists_of_rel_some (hlookup "arguments")
    have hdepth := hrequest.depth_eq
    cases hrequest with
    | @object _ _ given hinside hinsidePerm =>
      obtain ⟨hinsideKeys, hinsideLookup⟩ :=
        hinside.lookup_of_perm hinsidePerm request.nodup_members
      have hflat : Value.depthMembers given = 0 := by
        have hrequestDepth := request.depthMembers_members
        rw [Request.toJson, Value.depth, Value.depth] at hdepth
        rw [Request.members] at hrequestDepth
        omega
      obtain ⟨sorted, hsorted, hsortedKeys, hsame⟩ :=
        Reader.fromValue_anything hflat hinsideKeys
      -- in either order each key has the same text, truth value or null
      have hargument : ∀ {key : String} {argument : Value},
          request.members.lookup key = some argument → argument.depth = 0 →
            sorted.lookup key = some argument := by
        intro key argument hkey hargument
        have hrel := hinsideLookup key
        change Option.Rel Value.Reordered (request.members.lookup key) _ at hrel
        rw [hkey] at hrel
        obtain ⟨other, hother, hvalue⟩ := Value.exists_of_rel_some hrel
        rw [hsame, hother, hvalue.eq_of_depth hargument]
      have hrequest : Request.reader.fromValue (.object sorted) = .ok request :=
        (request.reads_of_lookup hsortedKeys (hargument rfl (Request.depth_ofString? _))
          (hargument rfl rfl) (hargument rfl (Request.depth_ofString? _))).fromValue
      have hread : Mark.reader.fromValue (.object _) =
          .ok (Mark.ofRow (marker, .object sorted, ())) :=
        @fromValue_record Mark [String, Value] _ Mark.ofRow _ _ (marker, .object sorted, ())
          ⟨rfl, rfl, Reader.roomy_string, rfl, rfl, Reader.roomy_anything, trivial⟩
          (by decide) hkeys
          ⟨(RecordField.written_of_lookup rfl (Reader.reads_string marker)).held hlookup,
            RecordField.held_of_lookup hgiven hsorted, trivial⟩
      exact ⟨_, hread, rfl, hrequest⟩

/-! ### Symbols -/

/-- The symbol of a property that carries a marker. -/
def markedSymbol (marker : String) (property : Property) : Value :=
  .object [("kind", .string "property"), ("name", .string property.name),
    ("type", property.type.toJson), ("visibility", .string property.visibility.name),
    ("owner", Property.ownerToJson property.owner),
    ("annotations", .array [Mark.form marker property.request])]

namespace ManifestSymbol

/-- With more room the same symbols are read. -/
theorem roomy_reader : Reader.Roomy reader :=
  Reader.readBy_record ⟨rfl, rfl, Reader.roomy_choice _, rfl, rfl, Reader.roomy_string, rfl, rfl,
    Reader.readBy_optional DeclaredType.roomy_reader, rfl, rfl, Reader.roomy_oneOf _, rfl, rfl,
    Reader.readBy_optional Owner.roomy_reader, rfl, rfl, Reader.readBy_list Mark.roomy_reader,
    trivial⟩

theorem reads_kind : SymbolKind.reader.Reads (.string "property") .property :=
  Reader.reads_choice rfl

/-- A marked symbol is read as a symbol of kind property with one mark, which has the name of the
marker and asks for what the property does. -/
theorem exists_of_form {marker : String} {property : Property} {value : Value}
    (h : (markedSymbol marker property).Reordered value) :
    ∃ mark, reader.fromValue value = .ok ⟨.property, property.name, some property.type,
        property.visibility, property.owner, [mark]⟩ ∧
      mark.name = marker ∧ Manifest.requestOf mark.arguments = .ok property.request := by
  cases h with
  | object hmembers hperm =>
    obtain ⟨hkeys, hlookup⟩ := hmembers.lookup_of_perm hperm (by simp)
    obtain ⟨marks, hmarks, hform⟩ := Value.exists_of_rel_some (hlookup "annotations")
    cases hform with
    | array hitems =>
      obtain ⟨item, rest, hitem, hrest, rfl⟩ := List.forall₂_cons_left_iff.mp hitems
      obtain rfl := List.forall₂_nil_left_iff.mp hrest
      obtain ⟨mark, hmark, hname, hrequest⟩ := Mark.exists_of_form hitem
      refine ⟨mark, ?_, hname, hrequest⟩
      exact @fromValue_record ManifestSymbol
        [SymbolKind, String, Option DeclaredType, Visibility, Option Owner, List Mark] _ ofRow _ _
        (.property, property.name, some property.type, property.visibility, property.owner, [mark],
          ())
        ⟨rfl, rfl, Reader.roomy_choice _, rfl, rfl, Reader.roomy_string, rfl, rfl,
          Reader.readBy_optional DeclaredType.roomy_reader, rfl, rfl, Reader.roomy_oneOf _, rfl,
          rfl, Reader.readBy_optional Owner.roomy_reader, rfl, rfl,
          Reader.readBy_list Mark.roomy_reader, trivial⟩
        (by decide) hkeys
        ⟨(RecordField.written_of_lookup rfl reads_kind).held hlookup,
          (RecordField.written_of_lookup rfl (Reader.reads_string _)).held hlookup,
          (RecordField.written_of_lookup rfl (Reader.reads_optional
            property.type.reads_toJson property.type.toJson_ne_null)).held hlookup,
          (RecordField.written_of_lookup rfl
            (Reader.reads_oneOf property.visibility.lookup_name)).held hlookup,
          (RecordField.written_of_lookup rfl
            (Property.reads_ownerToJson property.owner)).held hlookup,
          RecordField.held_of_lookup hmarks
            (Reader.fromValue_list Mark.roomy_reader (.cons hmark .nil)), trivial⟩

end ManifestSymbol

/-! ### Manifests -/

/-- The symbols of a manifest in which some properties carry a marker: each of them is there as it
is written, in order, and between them there are symbols of other kinds and without the marker. -/
inductive Carries (marker : String) : List Property → List Value → Prop where
  /-- There is no symbol. -/
  | nil : Carries marker [] []
  /-- A symbol that is no property, or does not carry the marker. -/
  | other {properties : List Property} {symbols : List Value} {value : Value}
      {symbol : ManifestSymbol} (hread : ManifestSymbol.reader.fromValue value = .ok symbol)
      (hskip : symbol.kind ≠ .property ∨ Manifest.markOf? symbol marker = none)
      (hrest : Carries marker properties symbols) : Carries marker properties (value :: symbols)
  /-- The symbol of a property. -/
  | marked {properties : List Property} {symbols : List Value} {property : Property}
      {value : Value} (hform : (markedSymbol marker property).Reordered value)
      (hrest : Carries marker properties symbols) :
      Carries marker (property :: properties) (value :: symbols)

namespace Manifest

/-- A symbol of another kind or without the marker declares nothing. -/
theorem property?_of_skip {origin marker : String} {symbol : ManifestSymbol}
    (h : symbol.kind ≠ .property ∨ markOf? symbol marker = none) :
    property? origin marker symbol = .ok none := by
  unfold property?
  by_cases hkind : symbol.kind ≠ .property
  · rw [if_pos hkind]
  · rw [if_neg hkind, h.resolve_left hkind]

/-- A symbol with one mark, which has the name of the marker, declares its property. -/
theorem property?_of_mark {origin marker : String} {property : Property} {mark : Mark}
    (hname : mark.name = marker) (hrequest : requestOf mark.arguments = .ok property.request) :
    property? origin marker ⟨.property, property.name, some property.type, property.visibility,
      property.owner, [mark]⟩ = .ok (some property) := by
  have hmark : [mark].find? (fun mark => mark.name = marker) = some mark := by
    simp [hname]
  unfold property? markOf?
  dsimp only
  rw [if_neg (not_not.mpr rfl), hmark]
  dsimp only
  rw [propertyOf, hrequest]
  rfl

/-- The symbols of a manifest are read one after the other, and the marked ones are found. -/
theorem exists_symbols_of_carries (origin : String) {marker : String} {properties : List Property}
    {values : List Value} (h : Carries marker properties values) :
    ∃ symbols, List.Forall₂
        (fun value symbol => ManifestSymbol.reader.fromValue value = .ok symbol) values symbols ∧
      discoverIn origin marker symbols = .ok properties := by
  induction h with
  | nil => exact ⟨[], .nil, rfl⟩
  | @other properties values value symbol hread hskip _ ih =>
    obtain ⟨symbols, hsymbols, hfound⟩ := ih
    refine ⟨symbol :: symbols, .cons hread hsymbols, ?_⟩
    rw [discoverIn, property?_of_skip hskip, hfound]
    rfl
  | @marked properties values property value hform _ ih =>
    obtain ⟨symbols, hsymbols, hfound⟩ := ih
    obtain ⟨mark, hread, hname, hrequest⟩ := ManifestSymbol.exists_of_form hform
    refine ⟨_ :: symbols, .cons hread hsymbols, ?_⟩
    rw [discoverIn, property?_of_mark hname hrequest, hfound]
    rfl

/-- **Discovery finds the properties of a manifest.**  If some properties are written into a
manifest as symbols that carry a marker, with symbols of other kinds and without the marker
anywhere between them, then the manifest is read, and discovery with the marker gives exactly
these properties, in order.  In particular every type, owner, request and property is read back
from what it is written as, whatever the order of members is. -/
theorem discover_of_carries :
    (∀ (origin marker : String) (properties : List Property) (values : List Value),
      Carries marker properties values →
      ∃ manifest, (reader origin).fromValue (.object [("symbols", .array values)]) =
          .ok manifest ∧ manifest.discover marker = .ok properties) ∧
    (∀ type : DeclaredType, DeclaredType.reader.Reads type.toJson type) ∧
    (∀ owner : Owner, Owner.reader.Reads owner.toJson owner) ∧
    (∀ request : Request, Request.reader.Reads request.toJson request) ∧
    (∀ property : Property, Property.reader.Reads property.toJson property) := by
  refine ⟨?_, DeclaredType.reads_toJson, Owner.reads_toJson, Request.reads_toJson,
    Property.reads_toJson⟩
  intro origin marker properties values h
  obtain ⟨symbols, hsymbols, hfound⟩ := exists_symbols_of_carries origin h
  have hlist := Reader.fromValue_list ManifestSymbol.roomy_reader hsymbols
  refine ⟨⟨origin, symbols⟩, ?_, hfound⟩
  exact @fromValue_record Manifest [List ManifestSymbol] _ (ofRow origin) _ _ (symbols, ())
    ⟨rfl, rfl, Reader.readBy_list ManifestSymbol.roomy_reader, trivial⟩ (by decide) (by simp)
    ⟨RecordField.held_of_lookup rfl hlist, trivial⟩

/-- A property of a screen, and one without owner whose type has an argument. -/
def listedProperties : List Property :=
  [⟨"id", .ofName "kotlin.Int", .privateOnly, some ⟨"app.Main", some "app", .screen, none⟩,
      ⟨some "key", true, none⟩⟩,
    ⟨"names", ⟨"kotlin.collections.List", true, [.ofName "kotlin.String"], ["kotlin.Any"]⟩,
      .visible, none, .plain⟩]

/-- Their symbols after a class that carries the marker, with a property that does not carry it
between them. -/
def listedSymbols : List Value :=
  [.object [("annotations", .array [.object [("qualified_name", .string "Autowired")]]),
      ("kind", .string "class"), ("name", .string "Main")],
    markedSymbol "Autowired" listedProperties[0],
    .array [.string "property", .string "other"],
    markedSymbol "Autowired" listedProperties[1]]

/-- The two properties are found between the other symbols. -/
theorem discover_of_carries_listed :
    Carries "Autowired" listedProperties listedSymbols ∧
    ∃ manifest, (reader "a.json").fromValue (.object [("symbols", .array listedSymbols)]) =
        .ok manifest ∧ manifest.discover "Autowired" = .ok listedProperties := by
  have hcarries : Carries "Autowired" listedProperties listedSymbols :=
    .other rfl (.inl nofun) (.marked (.refl _) (.other rfl (.inr rfl) (.marked (.refl _) .nil)))
  exact ⟨hcarries, discover_of_carries.1 "a.json" "Autowired" _ _ hcarries⟩

end Manifest

end Wiring
