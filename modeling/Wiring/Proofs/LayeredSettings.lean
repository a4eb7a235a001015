import Wiring.Proofs.EmissionOrder
import Wiring.Proofs.VariableNames
import Wiring.Settings.Load

/-!
# Settings key by key

Layers of settings are merged table by table, but what comes out can be said for every key on its
own: a key has the text of the last layer that gives it one.  So a section that stands in one layer
takes nothing away from the same section in another, and keys and sections that the settings do not
know change nothing.

## Main definitions

* `Settings.textAt?` — the text that a layer gives to a key of a section.
* `Settings.Readable` — the sections of a layer are tables of texts.
* `Settings.fromFile`, `Settings.fromEnvironment` — the texts that a file and an environment give.
* `Settings.GiveTexts` — a file and an environment with texts inside the sections.
* `Settings.givenText?` — the text that a key is given after all.

## Main results

* `Settings.lookup_mergeInto` — what is found in merged layers.
* `Settings.Readable.merge`, `Settings.textAt?_merge` — readable layers are merged key by key.
* `Settings.exists_ofLayer` — a readable layer gives settings.
* `Settings.load_key_by_key` — **every key is resolved on its own**.
-/

namespace Wiring.Settings

open Json (Increasing setMember lookup_setMember increasing_setMember)

/-! ### Merging tables -/

/-- What is found under a key of which the earlier layer has `old` and the later one `new`. -/
def mergedEntry (old new : Option Entry) : Option Entry :=
  match old, new with
  | old, none => old
  | none, some entry => some entry
  | some earlier, some later => some (earlier.merge later)

/-- What holds of entries and is kept by merging holds of what is found. -/
theorem of_mergedEntry {holds : Entry → Prop}
    (hmerge : ∀ earlier later, holds earlier → holds later → holds (earlier.merge later))
    {old new : Option Entry} {found : Entry} (hold : ∀ entry, old = some entry → holds entry)
    (hnew : ∀ entry, new = some entry → holds entry) (h : mergedEntry old new = some found) :
    holds found := by
  cases new with
  | none => exact hold found h
  | some later =>
    cases old with
    | none => exact hnew found h
    | some earlier =>
      obtain rfl := Option.some.inj h
      exact hmerge earlier later (hold earlier rfl) (hnew later rfl)

theorem increasing_mergeInto {earlier : Layer} (h : Increasing earlier) (later : Layer) :
    Increasing (mergeInto earlier later) := by
  induction later generalizing earlier with
  | nil => rwa [mergeInto]
  | cons member rest ih =>
    obtain ⟨key, entry⟩ := member
    rw [mergeInto]
    exact ih (increasing_setMember _ _ h)

/-- A key that comes first is not found again. -/
theorem lookup_of_increasing_cons {α : Type} {key : String} {value : α}
    {rest : List (String × α)} (h : Increasing ((key, value) :: rest)) :
    rest.lookup key = none := by
  rw [List.lookup_eq_none_iff]
  intro member hmem
  have hlt : key < member.1 := (List.pairwise_cons.mp h).1 member hmem
  exact bne_iff_ne.mpr fun heq => String.lt_irrefl _ (heq ▸ hlt)

/-- **What is found in merged layers** depends on what is found under the same key in both. -/
theorem lookup_mergeInto {later : Layer} (hlater : Increasing later) (earlier : Layer)
    (key : String) :
    (mergeInto earlier later).lookup key =
      mergedEntry (earlier.lookup key) (later.lookup key) := by
  induction later generalizing earlier with
  | nil =>
    rw [mergeInto, List.lookup_nil]
    cases earlier.lookup key <;> rfl
  | cons member rest ih =>
    obtain ⟨first, entry⟩ := member
    have hrest := (List.pairwise_cons.mp hlater).2
    rw [mergeInto, ih hrest, lookup_setMember, FileTree.lookup_cons_eq_ite]
    by_cases hkey : key = first
    · subst hkey
      rw [if_pos rfl, if_pos rfl, lookup_of_increasing_cons hlater]
      cases earlier.lookup key <;> rfl
    · rw [if_neg hkey, if_neg hkey]

/-! ### Readable layers -/

/-- The text of an entry, if it is one. -/
def Entry.text? : Entry → Option String
  | .scalar _ (.text s) => some s
  | _ => none

/-- The entry of a key of a table. -/
def Entry.member? (key : String) : Entry → Option Entry
  | .table _ members => members.lookup key
  | _ => none

/-- The text that a layer gives to a key of a section. -/
def textAt? (layer : Layer) (name key : String) : Option String :=
  ((layer.lookup name).bind (Entry.member? key)).bind Entry.text?

/-- The entry is a table of texts. -/
def Entry.IsSection (entry : Entry) : Prop :=
  ∃ place members, entry = .table place members ∧ Increasing members ∧
    ∀ key found, members.lookup key = some found → found.text?.isSome

/-- The sections of a layer are tables of texts; its other entries may be anything. -/
structure Readable (layer : Layer) : Prop where
  /-- The entries are in the order of their keys. -/
  increasing : Increasing layer
  /-- Each section that is there is a table of texts. -/
  sections : ∀ name ∈ sectionNames, ∀ entry, layer.lookup name = some entry → entry.IsSection

theorem Readable.empty : Readable [] where
  increasing := .nil
  sections _ _ _ h := by cases h

/-- A later text takes the place of whatever was there. -/
theorem Entry.text?_merge {old new : Entry} (h : new.text?.isSome) :
    (old.merge new).text? = new.text? := by
  cases new with
  | scalar place value => cases old <;> rfl
  | list place items => cases h
  | table place members => cases h

/-- Among texts the later one counts. -/
theorem bind_text?_mergedEntry {old new : Option Entry}
    (h : ∀ entry, new = some entry → entry.text?.isSome) :
    (mergedEntry old new).bind Entry.text? =
      (new.bind Entry.text?).or (old.bind Entry.text?) := by
  cases new with
  | none => rfl
  | some later =>
    obtain ⟨text, htext⟩ := Option.isSome_iff_exists.mp (h later rfl)
    cases old with
    | none => simp [mergedEntry]
    | some earlier =>
      rw [mergedEntry, Option.bind_some, Option.bind_some, Entry.text?_merge (h later rfl), htext,
        Option.some_or]

/-- Sections of two layers make one. -/
theorem Entry.IsSection.merge {earlier later : Entry} (hearlier : earlier.IsSection)
    (hlater : later.IsSection) : (earlier.merge later).IsSection := by
  obtain ⟨-, first, rfl, hfirst, htexts⟩ := hearlier
  obtain ⟨place, second, rfl, hsecond, hmore⟩ := hlater
  refine ⟨place, mergeInto first second, by rw [Entry.merge], increasing_mergeInto hfirst second,
    fun key found hfound => ?_⟩
  rw [lookup_mergeInto hsecond] at hfound
  refine of_mergedEntry (fun old new _ hnew => ?_) (htexts key) (hmore key) hfound
  rwa [Entry.text?_merge hnew]

/-- Layers with readable sections make one. -/
theorem Readable.merge {earlier later : Layer} (hearlier : Readable earlier)
    (hlater : Readable later) : Readable (Settings.merge earlier later) where
  increasing := increasing_mergeInto hearlier.increasing later
  sections name hname entry hentry := by
    rw [Settings.merge, lookup_mergeInto hlater.increasing] at hentry
    exact of_mergedEntry (fun _ _ => Entry.IsSection.merge) (hearlier.sections name hname)
      (hlater.sections name hname) hentry

/-- **Layers are merged key by key**: a key has the text of the later layer if that gives it one,
and else that of the earlier layer. -/
theorem textAt?_merge {earlier later : Layer} (hearlier : Readable earlier)
    (hlater : Readable later) {name : String} (hname : name ∈ sectionNames) (key : String) :
    textAt? (merge earlier later) name key =
      (textAt? later name key).or (textAt? earlier name key) := by
  rw [textAt?, textAt?, textAt?, merge, lookup_mergeInto hlater.increasing]
  cases hold : earlier.lookup name with
  | none => cases later.lookup name <;> simp [mergedEntry]
  | some old =>
    cases hnew : later.lookup name with
    | none => rfl
    | some new =>
      obtain ⟨-, first, rfl, -, -⟩ := hearlier.sections name hname old hold
      obtain ⟨place, second, rfl, hsecond, htexts⟩ := hlater.sections name hname new hnew
      rw [mergedEntry, Entry.merge]
      simp only [Option.bind_some, Entry.member?]
      rw [lookup_mergeInto hsecond, bind_text?_mergedEntry (htexts key)]

/-! ### Files -/

/-- The sections that a file gives are tables of texts; its other entries may be anything. -/
def TextSections (members : List (String × Toml.Value)) : Prop :=
  ∀ name ∈ sectionNames, ∀ value, members.lookup name = some value →
    ∃ entries, value = .table entries ∧ ∀ entry ∈ entries, ∃ s, entry.2 = .string s

/-- The text that a file gives to a key of a section. -/
def fromFile (members : List (String × Toml.Value)) (name key : String) : Option String :=
  match members.lookup name with
  | some (.table entries) =>
      match entries.lookup key with
      | some (.string s) => some s
      | _ => none
  | _ => none

/-- What a file gives: nothing, if it is not there; none, if it cannot be read. -/
def fileMembers? (disk : Disk) (path : Path) : Option (List (String × Toml.Value)) :=
  match findFile? disk path with
  | none => some []
  | some file =>
      match disk.readText file with
      | .error _ => none
      | .ok text => Toml.parse text

theorem lookup_ofMembers (place : Place) (members : List (String × Toml.Value)) (key : String) :
    (ofMembers place members).lookup key = (members.lookup key).map (ofValue place) := by
  induction members with
  | nil => rfl
  | cons member rest ih =>
    obtain ⟨first, value⟩ := member
    rw [ofMembers, lookup_setMember, FileTree.lookup_cons_eq_ite, ih]
    split <;> rfl

theorem increasing_ofMembers (place : Place) (members : List (String × Toml.Value)) :
    Increasing (ofMembers place members) := by
  induction members with
  | nil => exact .nil
  | cons member rest ih =>
    obtain ⟨first, value⟩ := member
    rw [ofMembers]
    exact increasing_setMember _ _ ih

/-- A file with texts in its sections gives a readable layer. -/
theorem readable_ofTable (place : Place) {members : List (String × Toml.Value)}
    (h : TextSections members) : Readable (ofTable place members) where
  increasing := increasing_ofMembers place members
  sections name hname entry hentry := by
    rw [ofTable, lookup_ofMembers] at hentry
    obtain ⟨value, hvalue, rfl⟩ := Option.map_eq_some_iff.mp hentry
    obtain ⟨entries, rfl, htexts⟩ := h name hname value hvalue
    refine ⟨place, ofMembers place entries, by rw [ofValue], increasing_ofMembers place entries,
      fun key found hfound => ?_⟩
    rw [lookup_ofMembers] at hfound
    obtain ⟨text, htext, rfl⟩ := Option.map_eq_some_iff.mp hfound
    obtain ⟨front, back, heq, -⟩ := List.lookup_eq_some_iff.mp htext
    obtain ⟨s, rfl⟩ := htexts (key, text) (by rw [heq]; simp)
    rw [ofValue]
    rfl

/-- The layer of a file gives the texts that the file gives. -/
theorem textAt?_ofTable (place : Place) {members : List (String × Toml.Value)}
    (h : TextSections members) {name : String} (hname : name ∈ sectionNames) (key : String) :
    textAt? (ofTable place members) name key = fromFile members name key := by
  rw [textAt?, fromFile, ofTable, lookup_ofMembers]
  cases hvalue : members.lookup name with
  | none => rfl
  | some value =>
    -- a date would be handed on as a table, and so not be what the file gives
    obtain ⟨entries, rfl, -⟩ := h name hname value hvalue
    rw [Option.map_some, Option.bind_some, ofValue, Entry.member?, lookup_ofMembers]
    dsimp only
    cases entries.lookup key with
    | none => rfl
    | some text =>
      rw [Option.map_some, Option.bind_some]
      cases text <;> rfl

/-! ### Environments -/

/-- Each variable that sets anything gives a text to a key of a section, or it sets something
outside the sections. -/
def TextVariables (environment : List (String × String)) : Prop :=
  ∀ member ∈ environment, ∀ keys, keysOf? member.1 = some keys →
    (∃ name ∈ sectionNames, ∃ key s, keys = [name, key] ∧ (entryOf member.2).text? = some s) ∨
    ∃ name rest, keys = name :: rest ∧ name ∉ sectionNames

/-- The text that a variable gives to a key of a section. -/
def variableText? (name key : String) (member : String × String) : Option String :=
  if keysOf? member.1 = some [name, key] then (entryOf member.2).text? else none

/-- The text that an environment gives to a key of a section.  If several variables do so, which
takes names in different cases, the last one counts. -/
def fromEnvironment (environment : List (String × String)) (name key : String) : Option String :=
  (environment.filterMap (variableText? name key)).getLast?

section

variable {member : String × String}

theorem lookup_singleton {α : Type} (key first : String) (value : α) :
    List.lookup key [(first, value)] = if key = first then some value else none := by
  rw [FileTree.lookup_cons_eq_ite, List.lookup_nil]

/-- A table with one text is a section. -/
theorem Entry.isSection_singleton (place : Place) {key : String} {entry : Entry}
    (h : entry.text?.isSome) : Entry.IsSection (.table place [(key, entry)]) := by
  refine ⟨place, [(key, entry)], rfl, List.pairwise_singleton _ _, fun other found hfound => ?_⟩
  rw [lookup_singleton] at hfound
  split at hfound
  · rwa [← Option.some.inj hfound]
  · cases hfound

/-- A layer with one entry is readable, unless that is a section of another kind. -/
theorem readable_singleton {name : String} {entry : Entry}
    (h : name ∈ sectionNames → entry.IsSection) : Readable [(name, entry)] := by
  refine ⟨List.pairwise_singleton _ _, fun other hother found hfound => ?_⟩
  rw [lookup_singleton] at hfound
  split at hfound
  · rename_i heq
    rw [← Option.some.inj hfound]
    exact h (heq ▸ hother)
  · cases hfound

/-- A variable with a text gives a readable layer. -/
theorem readable_ofVariable {environment : List (String × String)}
    (h : TextVariables environment) (hmem : member ∈ environment) :
    Readable (ofVariable member.1 member.2) := by
  have htexts := h member hmem
  unfold ofVariable
  cases hkeys : keysOf? member.1 with
  | none => exact .empty
  | some keys =>
    rcases htexts keys hkeys with ⟨name, -, key, s, rfl, hentry⟩ | ⟨name, rest, rfl, hname⟩
    · exact readable_singleton fun _ =>
        Entry.isSection_singleton .environment (Option.isSome_of_eq_some hentry)
    · exact readable_singleton fun hsection => absurd hsection hname

/-- The layer of a variable gives the text that the variable gives. -/
theorem textAt?_ofVariable {name : String} (hname : name ∈ sectionNames) (key : String)
    {environment : List (String × String)} (h : TextVariables environment)
    (hmem : member ∈ environment) :
    textAt? (ofVariable member.1 member.2) name key = variableText? name key member := by
  have htexts := h member hmem
  unfold ofVariable variableText?
  cases hkeys : keysOf? member.1 with
  | none => rfl
  | some keys =>
    rcases htexts keys hkeys with ⟨other, -, second, s, rfl, hentry⟩ | ⟨other, rest, rfl, hother⟩
    · dsimp only
      rw [textAt?, lookup_singleton]
      by_cases hsection : name = other
      · rw [if_pos hsection, Option.bind_some, nested, List.foldr_cons, List.foldr_nil,
          Entry.member?, lookup_singleton]
        by_cases hsecond : key = second
        · rw [if_pos hsecond, if_pos (by rw [hsection, hsecond])]
          rfl
        · rw [if_neg hsecond, if_neg (by simpa [hsection] using fun heq => hsecond heq.symm)]
          rfl
      · rw [if_neg hsection, if_neg (by simpa using fun heq => absurd heq.symm hsection)]
        rfl
    · have hne : name ≠ other := fun heq => hother (heq ▸ hname)
      dsimp only
      rw [textAt?, lookup_singleton, if_neg hne,
        if_neg (by simpa using fun heq => absurd heq.symm hne)]
      rfl

end

/-- Variables one after the other: the last one that gives a text to a key counts. -/
theorem readable_foldl_ofVariable {environment : List (String × String)}
    (h : TextVariables environment) {layer : Layer} (hlayer : Readable layer) :
    Readable (environment.foldl (fun layer member => merge layer (ofVariable member.1 member.2))
        layer) ∧
      ∀ name ∈ sectionNames, ∀ key,
        textAt? (environment.foldl
            (fun layer member => merge layer (ofVariable member.1 member.2)) layer) name key =
          ((environment.filterMap (variableText? name key)).getLast?).or
            (textAt? layer name key) := by
  -- the layer so far is general, since every variable is merged over all before it
  induction environment generalizing layer with
  | nil => exact ⟨hlayer, fun _ _ _ => rfl⟩
  | cons member rest ih =>
    have hvariable := readable_ofVariable h List.mem_cons_self
    have hrest : TextVariables rest := fun other hother => h other (List.mem_cons_of_mem _ hother)
    obtain ⟨hreadable, htexts⟩ := ih hrest (hlayer.merge hvariable)
    refine ⟨hreadable, fun name hname key => ?_⟩
    rw [List.foldl_cons, htexts name hname key, textAt?_merge hlayer hvariable hname,
      textAt?_ofVariable hname key h List.mem_cons_self, List.filterMap_cons]
    cases variableText? name key member with
    | none => rfl
    | some text =>
      dsimp only
      rw [List.getLast?_cons, Option.some_or]
      cases (rest.filterMap (variableText? name key)).getLast? <;> rfl

/-- The layer of an environment is readable and gives the texts that the environment gives. -/
theorem readable_ofEnvironment {environment : List (String × String)}
    (h : TextVariables environment) :
    Readable (ofEnvironment environment) ∧
      ∀ name ∈ sectionNames, ∀ key,
        textAt? (ofEnvironment environment) name key = fromEnvironment environment name key := by
  obtain ⟨hreadable, htexts⟩ := readable_foldl_ofVariable h .empty
  refine ⟨hreadable, fun name hname key => (htexts name hname key).trans ?_⟩
  exact Option.or_none

/-! ### Settings of a readable layer -/

theorem textOf_of_text? {keys : List String} {entry : Entry} {s : String}
    (h : entry.text? = some s) : textOf keys entry = .ok s := by
  cases entry with
  | scalar place value =>
    cases value with
    | text t => rw [textOf, Option.some.inj h]
    | _ => cases h
  | list place items => cases h
  | table place members => cases h

/-- A table of texts gives every known key the text that the table has for it. -/
theorem exists_textsIn (name : String) (known : List String) {members : Layer}
    (h : ∀ member ∈ members, member.2.text?.isSome) :
    ∃ texts, textsIn name known members = .ok texts ∧
      ∀ key ∈ known, texts.lookup key = (members.lookup key).bind Entry.text? := by
  induction members with
  | nil => exact ⟨[], by rw [textsIn], fun _ _ => rfl⟩
  | cons member rest ih =>
    obtain ⟨first, entry⟩ := member
    obtain ⟨texts, htexts, hlookup⟩ :=
      ih fun other hother => h other (List.mem_cons_of_mem _ hother)
    obtain ⟨s, hs⟩ := Option.isSome_iff_exists.mp (h (first, entry) List.mem_cons_self)
    by_cases hfirst : first ∈ known
    · refine ⟨(first, s) :: texts, ?_, fun key hkey => ?_⟩
      · rw [textsIn, if_pos hfirst, textOf_of_text? hs, htexts]
        rfl
      · rw [FileTree.lookup_cons_eq_ite, FileTree.lookup_cons_eq_ite, hlookup key hkey]
        split
        · exact hs.symm
        · rfl
    · refine ⟨texts, by rw [textsIn, if_neg hfirst, htexts], fun key hkey => ?_⟩
      have hne : key ≠ first := fun heq => hfirst (heq ▸ hkey)
      rw [hlookup key hkey, FileTree.lookup_cons_eq_ite, if_neg hne]

/-- The texts of a section of a readable layer. -/
theorem exists_textsOf {layer : Layer} (h : Readable layer) {name : String}
    (hname : name ∈ sectionNames) (type : String) (known : List String) :
    ∃ texts, textsOf layer name type known = .ok texts ∧
      ∀ key ∈ known, texts.lookup key = textAt? layer name key := by
  unfold textsOf textAt?
  cases hsection : layer.lookup name with
  | none => exact ⟨[], rfl, fun _ _ => rfl⟩
  | some entry =>
    obtain ⟨place, members, rfl, hmembers, htexts⟩ := h.sections name hname entry hsection
    exact exists_textsIn name known fun member hmem =>
      htexts member.1 member.2 ((Json.lookup_eq_some_iff_mem hmembers.nodup_keys).mpr hmem)

/-- A key with its text, or with the built-in one if it has none. -/
def withText (text? : String → Option String) : String × String → String × String
  | (key, builtIn) => (key, (text? key).getD builtIn)

/-- Only the texts of the keys matter. -/
theorem map_withText_congr {text? other? : String → Option String}
    {builtIns : List (String × String)}
    (h : ∀ key ∈ builtIns.map Prod.fst, text? key = other? key) :
    builtIns.map (withText text?) = builtIns.map (withText other?) := by
  refine List.map_congr_left fun (key, builtIn) hmem => ?_
  rw [withText, withText, h key (List.mem_map_of_mem hmem)]

/-- A readable layer gives settings, and each key has its text or the built-in one. -/
theorem exists_ofLayer {layer : Layer} (h : Readable layer) :
    ∃ settings, ofLayer layer = .ok settings ∧
      settings.naming.members =
        ({} : Naming).members.map (withText (textAt? layer "naming")) ∧
      settings.symbols.members =
        ({} : Symbols).members.map (withText (textAt? layer "runtime")) := by
  obtain ⟨naming, hnaming, hnamingTexts⟩ := exists_textsOf h (by decide : "naming" ∈ sectionNames)
    "Naming" (({} : Naming).members.map Prod.fst)
  obtain ⟨symbols, hsymbols, hsymbolTexts⟩ :=
    exists_textsOf h (by decide : "runtime" ∈ sectionNames) "RuntimeSymbols"
      (({} : Symbols).members.map Prod.fst)
  refine ⟨⟨.ofTexts naming, .ofTexts symbols⟩, ?_, ?_, ?_⟩
  · rw [ofLayer, hnaming]
    dsimp only
    rw [hsymbols]
  · calc (Naming.ofTexts naming).members
        = ({} : Naming).members.map (withText fun key => naming.lookup key) := rfl
      _ = _ := map_withText_congr hnamingTexts
  · calc (Symbols.ofTexts symbols).members
        = ({} : Symbols).members.map (withText fun key => symbols.lookup key) := rfl
      _ = _ := map_withText_congr hsymbolTexts

/-- Settings with the same texts are the same. -/
theorem eq_of_members {settings other : Settings}
    (hnaming : settings.naming.members = other.naming.members)
    (hsymbols : settings.symbols.members = other.symbols.members) : settings = other := by
  obtain ⟨naming, symbols⟩ := settings
  obtain ⟨otherNaming, otherSymbols⟩ := other
  cases naming
  cases otherNaming
  cases symbols
  cases otherSymbols
  simp_all [Naming.members, Symbols.members]

/-! ### Every key on its own -/

/-- A settings file, if there is one, and an environment that give nothing but texts inside the
sections, whether to known keys or to others; outside the sections they may give anything. -/
structure GiveTexts (disk : Disk) (environment : List (String × String)) (path : Option Path)
    (members : List (String × Toml.Value)) : Prop where
  /-- What the file gives. -/
  file : fileMembers? disk (path.getD defaultFile) = some members
  /-- The sections of the file are tables of texts. -/
  sections : TextSections members
  /-- The values of the variables for the sections are read as texts. -/
  environment : TextVariables environment

/-- The text that a key is given: by the environment, or else by the file. -/
def givenText? (environment : List (String × String)) (members : List (String × Toml.Value))
    (name key : String) : Option String :=
  (fromEnvironment environment name key).or (fromFile members name key)

/-- The layer of a file that can be read. -/
theorem exists_fileLayer {disk : Disk} {path : Path} {members : List (String × Toml.Value)}
    (h : fileMembers? disk path = some members) :
    ∃ place, fileLayer disk path = .ok (ofTable place members) := by
  unfold fileMembers? at h
  unfold fileLayer
  cases hfile : findFile? disk path with
  | none =>
    rw [hfile] at h
    obtain rfl := Option.some.inj h
    exact ⟨.environment, rfl⟩
  | some file =>
    rw [hfile] at h
    dsimp only at h ⊢
    cases htext : disk.readText file with
    | error fault =>
      rw [htext] at h
      cases h
    | ok text =>
      rw [htext] at h
      dsimp only at h ⊢
      rw [h]
      exact ⟨_, rfl⟩

/-- The settings have the resolved texts. -/
theorem GiveTexts.exists_load {disk : Disk} {environment : List (String × String)}
    {path : Option Path} {members : List (String × Toml.Value)}
    (h : GiveTexts disk environment path members) :
    ∃ settings, load disk environment path = .ok settings ∧
      settings.naming.members =
        ({} : Naming).members.map (withText (givenText? environment members "naming")) ∧
      settings.symbols.members =
        ({} : Symbols).members.map (withText (givenText? environment members "runtime")) := by
  obtain ⟨place, hlayer⟩ := exists_fileLayer h.file
  have hfile := readable_ofTable place h.sections
  obtain ⟨henvironment, htexts⟩ := readable_ofEnvironment h.environment
  have hgiven : ∀ name ∈ sectionNames, ∀ key,
      textAt? (merge (ofTable place members) (ofEnvironment environment)) name key =
        givenText? environment members name key := by
    intro name hname key
    rw [textAt?_merge hfile henvironment hname, htexts name hname,
      textAt?_ofTable place h.sections hname, givenText?]
  obtain ⟨settings, hsettings, hnaming, hsymbols⟩ := exists_ofLayer (hfile.merge henvironment)
  refine ⟨settings, ?_, hnaming.trans (map_withText_congr fun key _ => hgiven _ (by decide) key),
    hsymbols.trans (map_withText_congr fun key _ => hgiven _ (by decide) key)⟩
  rw [load, hlayer]
  dsimp only
  rw [hsettings]

section

variable {environment : List (String × String)} {name key : String}

/-- A variable that alone sets a key gives the key its text. -/
theorem fromEnvironment_of_unique {member : String × String} {s : String}
    (hmem : member ∈ environment) (hkeys : keysOf? member.1 = some [name, key])
    (htext : (entryOf member.2).text? = some s)
    (hunique : ∀ other ∈ environment, keysOf? other.1 = some [name, key] → other = member) :
    fromEnvironment environment name key = some s := by
  have hvariable : variableText? name key member = some s := by
    rw [variableText?, if_pos hkeys, htext]
  have hall : ∀ text ∈ environment.filterMap (variableText? name key), text = s := by
    intro text hfound
    obtain ⟨other, hother, heq⟩ := List.mem_filterMap.mp hfound
    have hsame : other = member := by
      refine hunique other hother ?_
      by_contra hne
      rw [variableText?, if_neg hne] at heq
      cases heq
    exact Option.some.inj (heq.symm.trans (hsame ▸ hvariable))
  have hthere : s ∈ environment.filterMap (variableText? name key) :=
    List.mem_filterMap.mpr ⟨member, hmem, hvariable⟩
  rw [fromEnvironment, List.getLast?_eq_some_getLast (List.ne_nil_of_mem hthere),
    hall _ (List.getLast_mem _)]

/-- A key that no variable sets is given no text. -/
theorem fromEnvironment_eq_none
    (h : ∀ member ∈ environment, keysOf? member.1 ≠ some [name, key]) :
    fromEnvironment environment name key = none := by
  rw [fromEnvironment, List.getLast?_eq_none_iff, List.filterMap_eq_nil_iff]
  intro member hmem
  rw [variableText?, if_neg (h member hmem)]

end

/-- **Every key is resolved on its own**: the settings can be loaded, and each key has the text of
the environment, or else that of the file, or else the built-in one.  The text of the environment
is that of the variable named after the key, in whatever case; and nothing but the texts given to
known keys has any effect. -/
theorem load_key_by_key {disk : Disk} {environment : List (String × String)} {path : Option Path}
    {members : List (String × Toml.Value)} (h : GiveTexts disk environment path members) :
    (∃ settings, load disk environment path = .ok settings ∧
      settings.naming.members =
        ({} : Naming).members.map (withText (givenText? environment members "naming")) ∧
      settings.symbols.members =
        ({} : Symbols).members.map (withText (givenText? environment members "runtime"))) ∧
    (∀ name ∈ sectionNames, ∀ key ∈ keysOfSection name,
      (∀ member ∈ environment, inCapitals member.1 = variableOf name key →
        (∀ other ∈ environment, keysOf? other.1 = some [name, key] → other = member) →
        ∃ s, (entryOf member.2).text? = some s ∧
          fromEnvironment environment name key = some s) ∧
      ((∀ member ∈ environment, keysOf? member.1 ≠ some [name, key]) →
        fromEnvironment environment name key = none)) ∧
    ∀ {other : Disk} {others : List (String × String)} {file : Option Path}
      {entries : List (String × Toml.Value)}, GiveTexts other others file entries →
      (∀ name ∈ sectionNames, ∀ key ∈ keysOfSection name,
        givenText? others entries name key = givenText? environment members name key) →
      load other others file = load disk environment path := by
  refine ⟨h.exists_load, fun name hname key hkey => ⟨?_, fromEnvironment_eq_none⟩, ?_⟩
  · intro member hmem hwritten hunique
    have hkeys := keysOf?_of_variableOf hname hkey hwritten
    rcases h.environment member hmem _ hkeys with
      ⟨_, -, _, s, -, hentry⟩ | ⟨other, rest, heq, hother⟩
    · exact ⟨s, hentry, fromEnvironment_of_unique hmem hkeys hentry hunique⟩
    · exact absurd ((List.cons.inj heq).1 ▸ hname) hother
  · intro other others file entries hother hsame
    obtain ⟨settings, hload, hnaming, hsymbols⟩ := h.exists_load
    obtain ⟨again, hagain, hnaming', hsymbols'⟩ := hother.exists_load
    have heq : again = settings := eq_of_members
      (hnaming'.trans ((map_withText_congr (hsame "naming" (by decide))).trans hnaming.symm))
      (hsymbols'.trans ((map_withText_congr (hsame "runtime" (by decide))).trans hsymbols.symm))
    rw [hload, hagain, heq]

/-- A settings file with unknown keys and an unknown section, in which there is a date. -/
def mixedFile : String :=
  "[naming]\nsuffix = \"$$Injector\"\nby = 'me'\n[runtime]\nregistry = \"R\"\nlog_tag = \"F\"\n" ++
    "[other]\nsince = 2024-02-29T07:32:00.5Z\n"

/-- The settings file stands in the folder above the current one. -/
def mixedDisk : Disk :=
  ⟨.folder [("autowire.toml", .file mixedFile.toUTF8), ("in", .folder [])], ["in"]⟩

/-- One variable sets a key of the file again, one a key and one a section that are unknown. -/
def mixedEnvironment : List (String × String) :=
  [("AUTOWIRE_NAMING__YEAR", "MM"), ("AUTOWIRE_OTHER__SIZE", "[4, 5]"), ("HOME", "/root"),
    ("autowire_runtime__Log_Tag", "\"Shell\"")]

/-- What the settings file gives. -/
def mixedMembers : List (String × Toml.Value) :=
  [("naming", .table [("suffix", .string "$$Injector"), ("by", .string "me")]),
    ("runtime", .table [("registry", .string "R"), ("log_tag", .string "F")]),
    ("other", .table [("since", .dateTime (.both ⟨2024, 2, 29, by decide⟩
      ⟨7, 32, 0, 500000000, by decide⟩ (some .universal)))])]

/-- The file and the environment share a section, and each keeps what the other leaves alone. -/
theorem load_key_by_key_mixed :
    GiveTexts mixedDisk mixedEnvironment none mixedMembers ∧
      load mixedDisk mixedEnvironment none =
        .ok ⟨{ suffix := "$$Injector" }, { registry := "R", logTag := "Shell" }⟩ := by
  have hfind : findFile? mixedDisk defaultFile = some ⟨"/autowire.toml"⟩ := by decide +kernel
  have htext : mixedDisk.readText ⟨"/autowire.toml"⟩ = .ok mixedFile :=
    Disk.readText_eq_ok_iff.mpr rfl
  have hparse : Toml.parse mixedFile = some mixedMembers := by cbv
  have hgive : GiveTexts mixedDisk mixedEnvironment none mixedMembers := by
    refine ⟨?_, ?_, ?_⟩
    · rw [fileMembers?, Option.getD_none, hfind]
      dsimp only
      rw [htext]
      exact hparse
    · intro name hname value hvalue
      rcases List.mem_cons.mp hname with rfl | hname
      · obtain rfl := Option.some.inj hvalue
        exact ⟨_, rfl, by simp⟩
      · obtain rfl := List.mem_singleton.mp hname
        obtain rfl := Option.some.inj hvalue
        exact ⟨_, rfl, by simp⟩
    · intro member hmem keys hkeys
      simp only [mixedEnvironment, List.mem_cons, List.not_mem_nil, or_false] at hmem
      rcases hmem with rfl | rfl | rfl | rfl
      · have hyear : keysOf? "AUTOWIRE_NAMING__YEAR" = some ["naming", "year"] := by decide +kernel
        exact .inl ⟨"naming", by decide, "year", "MM", Option.some.inj (hkeys.symm.trans hyear),
          by decide +kernel⟩
      · have hsize : keysOf? "AUTOWIRE_OTHER__SIZE" = some ["other", "size"] := by decide +kernel
        exact .inr ⟨"other", ["size"], Option.some.inj (hkeys.symm.trans hsize), by decide⟩
      · have hhome : keysOf? "HOME" = none := by decide +kernel
        cases hkeys.symm.trans hhome
      · have htag : keysOf? "autowire_runtime__Log_Tag" = some ["runtime", "log_tag"] := by
          decide +kernel
        exact .inl ⟨"runtime", by decide, "log_tag", "Shell",
          Option.some.inj (hkeys.symm.trans htag), by decide +kernel⟩
  obtain ⟨⟨settings, hload, hnaming, hsymbols⟩, -, -⟩ := load_key_by_key hgive
  refine ⟨hgive, hload.trans (congrArg Except.ok (eq_of_members (hnaming.trans ?_)
    (hsymbols.trans ?_)))⟩
  · decide +kernel
  · decide +kernel

end Wiring.Settings
