import Wiring.Pass
import Wiring.Proofs.FallibleLists
import Wiring.Proofs.ManifestForms

/-!
# Which symbols discovery takes, and which one ends it

Discovery looks at the symbols of all manifests, one manifest after the other.  A symbol counts if
it is a property and has a mark with the name of the marker; of several such marks the first one
decides.  It then has to say what the mark asks for and of what type the property is, and the first
symbol that does not ends discovery.  All other symbols may be left out of the manifests, whatever
the arguments of their marks are.

## Main definitions

* `ManifestSymbol.IsMarked` — the symbol counts.
* `Asks` — what the arguments of a mark ask for.
* `Declares` — the injected property that a symbol declares.
* `Offends` — what is wrong with a symbol that counts.
* `PlacedSymbol`, `PlacedSymbol.Faulty`, `placedSymbols` — the symbols of all manifests, with where
  they come from.

## Main results

* `Manifest.property?_eq_some_iff`, `Manifest.property?_eq_error_iff`,
  `Manifest.property?_eq_none_iff` — what becomes of one symbol.
* `discoverAll_eq_collect` — discovery takes the symbols one by one.
* `discover_manifests_outcome` — **when discovery succeeds, what it finds, and which symbol ends
  it.**
-/

namespace Wiring

/-! ### One symbol -/

/-- The symbol is a property and has a mark with the name of the marker. -/
def ManifestSymbol.IsMarked (marker : String) (symbol : ManifestSymbol) : Prop :=
  symbol.kind = .property ∧ ∃ mark ∈ symbol.marks, mark.name = marker

instance (marker : String) (symbol : ManifestSymbol) : Decidable (symbol.IsMarked marker) :=
  inferInstanceAs (Decidable (_ ∧ _))

/-- What the arguments of a mark ask for: nothing special if they are null, and otherwise what they
are read as. -/
inductive Asks : Json.Value → Request → Prop where
  /-- The mark has no arguments. -/
  | plain : Asks .null .plain
  /-- The mark has arguments. -/
  | given {arguments : Json.Value} {request : Request} (hgiven : arguments ≠ .null)
      (hread : Request.reader.fromValue arguments = .ok request) : Asks arguments request

/-- The injected property that a symbol declares: its name, type, visibility and owner, and what the
first mark with the name of the marker asks for. -/
structure Declares (marker : String) (symbol : ManifestSymbol) (property : Property) : Prop where
  /-- Only properties declare one. -/
  kind : symbol.kind = .property
  /-- The first mark of the marker's name says what is asked for. -/
  asks : ∃ mark, FirstWith (fun mark => mark.name = marker) symbol.marks mark ∧
    Asks mark.arguments property.request
  /-- The name is that of the symbol. -/
  name : symbol.name = property.name
  /-- The symbol has a declared type, which is the property's. -/
  type : symbol.type = some property.type
  /-- The visibility is that of the symbol. -/
  visibility : symbol.visibility = property.visibility
  /-- The owner is that of the symbol. -/
  owner : symbol.owner = property.owner

/-- What is wrong with a symbol that counts.  It says of what type it is only after it has said what
its mark asks for. -/
inductive Offends (origin marker : String) (symbol : ManifestSymbol) : DiscoveryFault → Prop where
  /-- The arguments of its first mark cannot be read. -/
  | unreadable {mark : Mark} {fault : Json.Fault} (hkind : symbol.kind = .property)
      (hfirst : FirstWith (fun mark => mark.name = marker) symbol.marks mark)
      (hgiven : mark.arguments ≠ .null)
      (hread : Request.reader.fromValue mark.arguments = .error fault) :
      Offends origin marker symbol (.unreadable (Manifest.argumentsPlace origin symbol.name) fault)
  /-- It has no declared type. -/
  | untyped {mark : Mark} {request : Request} (hkind : symbol.kind = .property)
      (hfirst : FirstWith (fun mark => mark.name = marker) symbol.marks mark)
      (hasks : Asks mark.arguments request) (htype : symbol.type = none) :
      Offends origin marker symbol (.untyped origin symbol.name)

namespace Manifest

variable {origin marker : String} {symbol : ManifestSymbol}

theorem requestOf_eq_ok_iff {arguments : Json.Value} {request : Request} :
    requestOf arguments = .ok request ↔ Asks arguments request := by
  unfold requestOf
  split
  · constructor
    · intro h
      obtain rfl := Except.ok.inj h
      exact .plain
    · rintro (- | ⟨hgiven, -⟩)
      · rfl
      · exact absurd rfl hgiven
  · rename_i hgiven
    constructor
    · exact .given hgiven
    · rintro (- | ⟨-, hread⟩)
      · exact absurd rfl hgiven
      · exact hread

theorem requestOf_eq_error_iff {arguments : Json.Value} {fault : Json.Fault} :
    requestOf arguments = .error fault ↔
      arguments ≠ .null ∧ Request.reader.fromValue arguments = .error fault := by
  unfold requestOf
  split
  · simp
  · rename_i hgiven
    exact (and_iff_right hgiven).symm

/-- The mark that decides is the first one of its name. -/
theorem markOf?_eq_some_iff {mark : Mark} :
    markOf? symbol marker = some mark ↔
      FirstWith (fun mark => mark.name = marker) symbol.marks mark := by
  unfold markOf? FirstWith
  rw [List.find?_eq_some_iff_append]
  constructor
  · rintro ⟨hmark, before, after, hmarks, hbefore⟩
    exact ⟨before, after, hmarks, by simpa using hmark, by simpa using hbefore⟩
  · rintro ⟨before, after, hmarks, hmark, hbefore⟩
    exact ⟨by simpa using hmark, before, after, hmarks, by simpa using hbefore⟩

/-- What a mark makes a symbol declare: its arguments are read first, and then there has to be a
type. -/
theorem propertyOf_eq_ok_iff {mark : Mark} {property : Property} :
    propertyOf origin symbol mark = .ok property ↔
      ∃ request type, Asks mark.arguments request ∧ symbol.type = some type ∧
        property = ⟨symbol.name, type, symbol.visibility, symbol.owner, request⟩ := by
  simp only [← requestOf_eq_ok_iff]
  unfold propertyOf
  cases requestOf mark.arguments with
  | error fault => simp
  | ok request => cases symbol.type <;> simp [eq_comm]

theorem propertyOf_eq_error_iff {mark : Mark} {fault : DiscoveryFault} :
    propertyOf origin symbol mark = .error fault ↔
      (∃ unread, mark.arguments ≠ .null ∧ Request.reader.fromValue mark.arguments = .error unread ∧
        fault = .unreadable (argumentsPlace origin symbol.name) unread) ∨
      (∃ request, Asks mark.arguments request ∧ symbol.type = none ∧
        fault = .untyped origin symbol.name) := by
  simp only [← requestOf_eq_ok_iff, ← and_assoc, ← requestOf_eq_error_iff]
  unfold propertyOf
  -- the type is looked at only where the arguments have been read
  cases requestOf mark.arguments with
  | error unread => simp [eq_comm]
  | ok request => cases symbol.type <;> simp [eq_comm]

/-- A symbol that counts leads to what its first mark leads to. -/
theorem property?_of_firstWith {mark : Mark} (hkind : symbol.kind = .property)
    (hfirst : FirstWith (fun mark => mark.name = marker) symbol.marks mark) :
    property? origin marker symbol = (propertyOf origin symbol mark).map some := by
  rw [property?, if_neg (not_not.mpr hkind), markOf?_eq_some_iff.mpr hfirst]

/-- Nothing comes of a symbol that does not count, and every other one has a first mark. -/
theorem property?_cases (origin marker : String) (symbol : ManifestSymbol) :
    (¬ symbol.IsMarked marker ∧ property? origin marker symbol = .ok none) ∨
      (symbol.IsMarked marker ∧ ∃ mark, symbol.kind = .property ∧
        FirstWith (fun mark => mark.name = marker) symbol.marks mark ∧
        property? origin marker symbol = (propertyOf origin symbol mark).map some) := by
  by_cases hmarked : symbol.IsMarked marker
  · obtain ⟨mark, hfirst⟩ := exists_firstWith hmarked.2
    exact .inr ⟨hmarked, mark, hmarked.1, hfirst, property?_of_firstWith hmarked.1 hfirst⟩
  · refine .inl ⟨hmarked, property?_of_skip ?_⟩
    by_cases hkind : symbol.kind = .property
    · -- a mark of the name would make the symbol count
      right
      cases hmark : markOf? symbol marker with
      | none => rfl
      | some mark =>
        have hfirst := markOf?_eq_some_iff.mp hmark
        exact absurd ⟨hkind, mark, hfirst.mem, hfirst.prop⟩ hmarked
    · exact .inl hkind

theorem property?_eq_none_iff :
    property? origin marker symbol = .ok none ↔ ¬ symbol.IsMarked marker := by
  rcases property?_cases origin marker symbol with ⟨hnot, hnone⟩ | ⟨hmarked, mark, -, -, hproperty⟩
  · exact iff_of_true hnone hnot
  · refine iff_of_false (fun hnone => ?_) (not_not.mpr hmarked)
    rw [hproperty] at hnone
    cases hmade : propertyOf origin symbol mark <;> rw [hmade] at hnone <;> cases hnone

/-- A property comes of a symbol exactly if the symbol declares it. -/
theorem property?_eq_some_iff {property : Property} :
    property? origin marker symbol = .ok (some property) ↔ Declares marker symbol property := by
  have hmap : ∀ made : Except DiscoveryFault Property,
      made.map some = .ok (some property) ↔ made = .ok property := by
    intro made
    cases made <;> simp [Except.map]
  constructor
  · intro h
    rcases property?_cases origin marker symbol with
      ⟨-, hnone⟩ | ⟨-, mark, hkind, hfirst, hproperty⟩
    · rw [hnone] at h
      cases h
    · rw [hproperty, hmap] at h
      obtain ⟨request, type, hasks, htype, rfl⟩ := propertyOf_eq_ok_iff.mp h
      exact ⟨hkind, ⟨mark, hfirst, hasks⟩, rfl, htype, rfl, rfl⟩
  · rintro ⟨hkind, ⟨mark, hfirst, hasks⟩, hname, htype, hvisibility, howner⟩
    rw [property?_of_firstWith hkind hfirst, hmap]
    refine propertyOf_eq_ok_iff.mpr ⟨property.request, property.type, hasks, htype, ?_⟩
    rw [hname, hvisibility, howner]

/-- A symbol ends discovery exactly with what is wrong with it. -/
theorem property?_eq_error_iff {fault : DiscoveryFault} :
    property? origin marker symbol = .error fault ↔ Offends origin marker symbol fault := by
  have hmap : ∀ made : Except DiscoveryFault Property,
      made.map some = .error fault ↔ made = .error fault := by
    intro made
    cases made <;> simp [Except.map]
  constructor
  · intro h
    rcases property?_cases origin marker symbol with
      ⟨-, hnone⟩ | ⟨-, mark, hkind, hfirst, hproperty⟩
    · rw [hnone] at h
      cases h
    · rw [hproperty, hmap] at h
      rcases propertyOf_eq_error_iff.mp h with
        ⟨unread, hgiven, hread, rfl⟩ | ⟨request, hasks, htype, rfl⟩
      · exact .unreadable hkind hfirst hgiven hread
      · exact .untyped hkind hfirst hasks htype
  · rintro (⟨hkind, hfirst, hgiven, hread⟩ | ⟨hkind, hfirst, hasks, htype⟩)
    · rw [property?_of_firstWith hkind hfirst, hmap]
      exact propertyOf_eq_error_iff.mpr (.inl ⟨_, hgiven, hread, rfl⟩)
    · rw [property?_of_firstWith hkind hfirst, hmap]
      exact propertyOf_eq_error_iff.mpr (.inr ⟨_, hasks, htype, rfl⟩)

end Manifest

/-- Nothing is wrong with a symbol exactly if its first mark, where it counts, asks for something
and it has a declared type. -/
theorem not_exists_offends_iff {origin marker : String} {symbol : ManifestSymbol} :
    (¬ ∃ fault, Offends origin marker symbol fault) ↔
      ∀ mark, symbol.kind = .property →
        FirstWith (fun mark => mark.name = marker) symbol.marks mark →
        (∃ request, Asks mark.arguments request) ∧ symbol.type ≠ none := by
  constructor
  · intro hnone mark hkind hfirst
    cases hrequest : Manifest.requestOf mark.arguments with
    | error fault =>
      obtain ⟨hgiven, hread⟩ := Manifest.requestOf_eq_error_iff.mp hrequest
      exact absurd ⟨_, .unreadable hkind hfirst hgiven hread⟩ hnone
    | ok request =>
      have hasks := Manifest.requestOf_eq_ok_iff.mp hrequest
      exact ⟨⟨request, hasks⟩, fun htype => hnone ⟨_, .untyped hkind hfirst hasks htype⟩⟩
  · rintro h ⟨-, ⟨hkind, hfirst, hgiven, hread⟩ | ⟨hkind, hfirst, -, htype⟩⟩
    · obtain ⟨⟨request, hasks⟩, -⟩ := h _ hkind hfirst
      have hok := Manifest.requestOf_eq_ok_iff.mpr hasks
      rw [Manifest.requestOf_eq_error_iff.mpr ⟨hgiven, hread⟩] at hok
      cases hok
    · exact (h _ hkind hfirst).2 htype

/-- The message for what is wrong with a symbol names the manifest that the symbol comes from. -/
theorem Offends.exists_message_eq {origin marker : String} {symbol : ManifestSymbol}
    {fault : DiscoveryFault} (h : Offends origin marker symbol fault) :
    ∃ before after, (Problem.ofDiscovery fault).message = before ++ origin ++ after := by
  cases h with
  | @unreadable mark unread =>
    refine ⟨"invalid symbol manifest ", " (symbol '" ++ symbol.name ++ "'): " ++ unread.message, ?_⟩
    show "invalid symbol manifest " ++ (origin ++ " (symbol '" ++ symbol.name ++ "')") ++ ": " ++
      unread.message = _
    rw [← String.toList_inj]
    simp
  | untyped =>
    exact ⟨"invalid symbol '" ++ symbol.name ++ "' in ", ": property has no declared type", rfl⟩

/-! ### All symbols -/

/-- A symbol with where its manifest was read from. -/
structure PlacedSymbol where
  /-- Where its manifest was read from. -/
  origin : String
  /-- The symbol. -/
  symbol : ManifestSymbol

/-- The symbols of a manifest, with where it was read from. -/
def Manifest.placed (manifest : Manifest) : List PlacedSymbol :=
  manifest.symbols.map (PlacedSymbol.mk manifest.origin)

/-- The symbols of some manifests, one manifest after the other. -/
def placedSymbols (manifests : List Manifest) : List PlacedSymbol :=
  manifests.flatMap Manifest.placed

/-- The manifest with those symbols only that count. -/
def Manifest.keepMarked (marker : String) (manifest : Manifest) : Manifest :=
  { manifest with symbols := manifest.symbols.filter fun symbol => symbol.IsMarked marker }

/-- Something is wrong with the symbol. -/
def PlacedSymbol.Faulty (marker : String) (placed : PlacedSymbol) : Prop :=
  ∃ fault, Offends placed.origin marker placed.symbol fault

/-- What becomes of a symbol. -/
def PlacedSymbol.property? (marker : String) (placed : PlacedSymbol) :
    Except DiscoveryFault (Option Property) :=
  Manifest.property? placed.origin marker placed.symbol

theorem discover_eq_collect (marker : String) (manifest : Manifest) :
    manifest.discover marker = collect (PlacedSymbol.property? marker) manifest.placed := by
  unfold Manifest.discover Manifest.placed
  induction manifest.symbols with
  | nil => rfl
  | cons symbol rest ih =>
    rw [Manifest.discoverIn, ih, List.map_cons, collect, PlacedSymbol.property?]
    cases Manifest.property? manifest.origin marker symbol <;> rfl

/-- Discovery takes the symbols of all manifests one by one. -/
theorem discoverAll_eq_collect (marker : String) (manifests : List Manifest) :
    Manifest.discoverAll marker manifests =
      collect (PlacedSymbol.property? marker) (placedSymbols manifests) := by
  induction manifests with
  | nil => rfl
  | cons manifest rest ih =>
    have hplaced : placedSymbols (manifest :: rest) = manifest.placed ++ placedSymbols rest := rfl
    rw [Manifest.discoverAll, discover_eq_collect, ih, hplaced, collect_append]
    cases collect (PlacedSymbol.property? marker) manifest.placed <;> rfl

/-- The symbols that count are those that are left when each manifest keeps only these. -/
theorem placedSymbols_map_keepMarked (marker : String) (manifests : List Manifest) :
    placedSymbols (manifests.map (Manifest.keepMarked marker)) =
      (placedSymbols manifests).filter fun placed => placed.symbol.IsMarked marker := by
  induction manifests with
  | nil => rfl
  | cons manifest rest ih =>
    have hfirst : (manifest.keepMarked marker).placed =
        manifest.placed.filter fun placed => placed.symbol.IsMarked marker := by
      unfold Manifest.placed
      rw [List.filter_map]
      rfl
    have hrest : placedSymbols ((manifest :: rest).map (Manifest.keepMarked marker)) =
        (manifest.keepMarked marker).placed ++
          placedSymbols (rest.map (Manifest.keepMarked marker)) := rfl
    rw [hrest, hfirst, ih, ← List.filter_append]
    rfl

/-- The symbols that count, with and without where they come from. -/
theorem map_symbol_filter_placedSymbols (marker : String) (manifests : List Manifest) :
    ((placedSymbols manifests).filter fun placed => placed.symbol.IsMarked marker).map
        PlacedSymbol.symbol =
      (manifests.flatMap Manifest.symbols).filter fun symbol => symbol.IsMarked marker := by
  have hsymbols : (placedSymbols manifests).map PlacedSymbol.symbol =
      manifests.flatMap Manifest.symbols := by
    rw [placedSymbols, List.map_flatMap]
    congr 1
    funext manifest
    rw [Manifest.placed, List.map_map]
    exact List.map_id _
  rw [← hsymbols, List.filter_map]
  rfl

/-- What discovery finds is declared by the symbols that count, in order. -/
theorem discoverAll_eq_ok_iff {marker : String} {manifests : List Manifest}
    {properties : List Property} :
    Manifest.discoverAll marker manifests = .ok properties ↔
      List.Forall₂ (Declares marker)
        ((manifests.flatMap Manifest.symbols).filter fun symbol => symbol.IsMarked marker)
        properties := by
  rw [discoverAll_eq_collect,
    collect_eq_ok_iff (fun placed => placed.symbol.IsMarked marker)
      fun placed => Manifest.property?_eq_none_iff,
    ← map_symbol_filter_placedSymbols, List.forall₂_map_left_iff]
  simp only [PlacedSymbol.property?, Manifest.property?_eq_some_iff]

/-- Discovery ends with what is wrong with the first symbol with which something is. -/
theorem discoverAll_eq_error_iff {marker : String} {manifests : List Manifest}
    {fault : DiscoveryFault} :
    Manifest.discoverAll marker manifests = .error fault ↔
      ∃ placed, FirstWith (PlacedSymbol.Faulty marker) (placedSymbols manifests) placed ∧
        Offends placed.origin marker placed.symbol fault := by
  rw [discoverAll_eq_collect, collect_eq_error_iff]
  simp only [PlacedSymbol.property?, Manifest.property?_eq_error_iff]
  rfl

theorem discover_manifests_eq_ok_iff {marker : String} {manifests : List Manifest}
    {properties : List Property} :
    (PropertySource.manifests manifests).discover marker = .ok properties ↔
      Manifest.discoverAll marker manifests = .ok properties := by
  unfold PropertySource.discover
  cases hfound : Manifest.discoverAll marker manifests <;> simp [hfound]

theorem discover_manifests_eq_error_iff {marker : String} {manifests : List Manifest}
    {problem : Problem} :
    (PropertySource.manifests manifests).discover marker = .error problem ↔
      ∃ fault, Manifest.discoverAll marker manifests = .error fault ∧
        problem = .ofDiscovery fault := by
  unfold PropertySource.discover
  cases hfound : Manifest.discoverAll marker manifests <;> simp [hfound, eq_comm]

/-- Discovery succeeds exactly if nothing is wrong with any symbol. -/
theorem exists_discoverAll_iff {marker : String} {manifests : List Manifest} :
    (∃ properties, Manifest.discoverAll marker manifests = .ok properties) ↔
      ∀ manifest ∈ manifests, ∀ symbol ∈ manifest.symbols,
        ¬ ∃ fault, Offends manifest.origin marker symbol fault := by
  constructor
  · rintro ⟨properties, hfound⟩ manifest hmanifest symbol hsymbol hoffends
    have hplaced : PlacedSymbol.mk manifest.origin symbol ∈ placedSymbols manifests :=
      List.mem_flatMap.mpr ⟨manifest, hmanifest, List.mem_map_of_mem hsymbol⟩
    obtain ⟨first, hfirst⟩ : ∃ first,
        FirstWith (PlacedSymbol.Faulty marker) (placedSymbols manifests) first :=
      exists_firstWith ⟨_, hplaced, hoffends⟩
    obtain ⟨fault, hfault⟩ := hfirst.prop
    rw [discoverAll_eq_error_iff.mpr ⟨first, hfirst, hfault⟩] at hfound
    cases hfound
  · intro hnone
    cases hfound : Manifest.discoverAll marker manifests with
    | ok properties => exact ⟨properties, rfl⟩
    | error fault =>
      obtain ⟨placed, hfirst, hoffends⟩ := discoverAll_eq_error_iff.mp hfound
      obtain ⟨manifest, hmanifest, hplaced⟩ := List.mem_flatMap.mp hfirst.mem
      obtain ⟨symbol, hsymbol, rfl⟩ := List.mem_map.mp hplaced
      exact absurd ⟨fault, hoffends⟩ (hnone manifest hmanifest symbol hsymbol)

/-- **When discovery succeeds, what it finds, and which symbol ends it.**  It succeeds exactly if
every property's first mark of the marker's name asks for something and the property has a declared
type.  It finds exactly one property for each symbol that counts, one manifest after the other and
in the order of their symbols, and the symbols that do not count may be left out.  Otherwise the
first symbol with which something is wrong ends it; arguments that cannot be read come before a
missing type, and the message names the manifest of that symbol. -/
theorem discover_manifests_outcome (marker : String) (manifests : List Manifest) :
    ((∃ properties, (PropertySource.manifests manifests).discover marker = .ok properties) ↔
      ∀ manifest ∈ manifests, ∀ symbol ∈ manifest.symbols, ∀ mark, symbol.kind = .property →
        FirstWith (fun mark => mark.name = marker) symbol.marks mark →
        (∃ request, Asks mark.arguments request) ∧ symbol.type ≠ none) ∧
    (∀ properties, (PropertySource.manifests manifests).discover marker = .ok properties ↔
      List.Forall₂ (Declares marker)
        ((manifests.flatMap Manifest.symbols).filter fun symbol => symbol.IsMarked marker)
        properties) ∧
    (PropertySource.manifests (manifests.map (Manifest.keepMarked marker))).discover marker =
      (PropertySource.manifests manifests).discover marker ∧
    (∀ problem, (PropertySource.manifests manifests).discover marker = .error problem ↔
      ∃ placed fault, FirstWith (PlacedSymbol.Faulty marker) (placedSymbols manifests) placed ∧
        Offends placed.origin marker placed.symbol fault ∧ problem = .ofDiscovery fault) ∧
    (∀ origin symbol fault, Offends origin marker symbol fault →
      ∃ before after, (Problem.ofDiscovery fault).message = before ++ origin ++ after) := by
  refine ⟨?_, fun properties => discover_manifests_eq_ok_iff.trans discoverAll_eq_ok_iff, ?_, ?_,
    fun origin symbol fault => Offends.exists_message_eq⟩
  · simp only [discover_manifests_eq_ok_iff, exists_discoverAll_iff, not_exists_offends_iff]
  · have hsame : Manifest.discoverAll marker (manifests.map (Manifest.keepMarked marker)) =
        Manifest.discoverAll marker manifests := by
      rw [discoverAll_eq_collect, discoverAll_eq_collect, placedSymbols_map_keepMarked]
      exact collect_filter (fun placed => Manifest.property?_eq_none_iff.mpr) _
    simp only [PropertySource.discover, hsame]
  · intro problem
    rw [discover_manifests_eq_error_iff]
    constructor
    · rintro ⟨fault, hfault, rfl⟩
      obtain ⟨placed, hfirst, hoffends⟩ := discoverAll_eq_error_iff.mp hfault
      exact ⟨placed, fault, hfirst, hoffends, rfl⟩
    · rintro ⟨placed, fault, hfirst, hoffends, rfl⟩
      exact ⟨fault, discoverAll_eq_error_iff.mpr ⟨placed, hfirst, hoffends⟩, rfl⟩

end Wiring
