import Wiring.Proofs.JsonText
import Wiring.Proofs.OutputFolders

/-!
# The index of an output folder

The index has one entry for each path under which a file was taken, in the order of the paths, with
the source of the last such file.  Its text is read back as the index it is.

## Main definitions

* `SourceFile.Plain` — neither the package nor the class name has a slash or a backslash.
* `Provenance.ofText?` — the index in the text of a file.

## Main results

* `Provenance.increasing_foldl_record`, `Provenance.lookup_foldl_record` — the index after some
  files were taken.
* `Provenance.ofText?_text` — the text of an index is read back.
-/

namespace Wiring

open Json (Increasing setMember)

/-! ### Members in the order of their keys -/

namespace Json

theorem lookup_setMember {α : Type} (key other : String) (value : α)
    (members : List (String × α)) :
    (setMember key value members).lookup other =
      if other = key then some value else members.lookup other := by
  induction members with
  | nil => rw [setMember, FileTree.lookup_cons_eq_ite]
  | cons member rest ih =>
    obtain ⟨first, old⟩ := member
    rw [setMember]
    by_cases hlt : key < first
    · rw [if_pos hlt, FileTree.lookup_cons_eq_ite]
    by_cases hkey : key = first
    · rw [if_neg hlt, if_pos hkey, FileTree.lookup_cons_eq_ite, FileTree.lookup_cons_eq_ite, ← hkey]
      by_cases h : other = key <;> simp [h]
    · rw [if_neg hlt, if_neg hkey, FileTree.lookup_cons_eq_ite, FileTree.lookup_cons_eq_ite, ih]
      by_cases h : other = first
      · subst h
        simp [Ne.symm hkey]
      · simp [h]

theorem mem_setMember {α : Type} {key : String} {value : α} {members : List (String × α)}
    {member : String × α} (h : member ∈ setMember key value members) :
    member = (key, value) ∨ member ∈ members := by
  induction members with
  | nil => exact .inl (List.mem_singleton.mp h)
  | cons first rest ih =>
    unfold setMember at h
    split_ifs at h with hlt hkey
    · exact List.mem_cons.mp h
    · exact (List.mem_cons.mp h).imp_right (List.mem_cons_of_mem first)
    · rcases List.mem_cons.mp h with rfl | hrest
      · exact .inr List.mem_cons_self
      · exact (ih hrest).imp_right (List.mem_cons_of_mem first)

/-- The keys stay in order. -/
theorem increasing_setMember {α : Type} (key : String) (value : α) {members : List (String × α)}
    (h : Increasing members) : Increasing (setMember key value members) := by
  induction members with
  | nil => exact List.pairwise_singleton _ _
  | cons first rest ih =>
    obtain ⟨hfirst, hrest⟩ := List.pairwise_cons.mp h
    unfold setMember
    split_ifs with hlt hkey
    · refine List.pairwise_cons.mpr ⟨fun member hmem => ?_, h⟩
      rcases List.mem_cons.mp hmem with rfl | hmem
      · exact hlt
      · exact String.lt_trans hlt (hfirst member hmem)
    · exact List.pairwise_cons.mpr ⟨fun member hmem => hkey ▸ hfirst member hmem, hrest⟩
    · refine List.pairwise_cons.mpr ⟨fun member hmem => ?_, ih hrest⟩
      rcases mem_setMember hmem with rfl | hmem
      · exact lt_of_not_lt_of_ne hlt hkey
      · exact hfirst member hmem

end Json

/-! ### Paths without backslashes -/

namespace SourceFile

/-- Neither the package nor the class name has a slash or a backslash. -/
def Plain (file : SourceFile) : Prop :=
  file.Slashless ∧ '\\' ∉ file.package.toList ∧ '\\' ∉ file.className.toList

instance (file : SourceFile) : Decidable file.Plain :=
  inferInstanceAs (Decidable
    (file.Slashless ∧ '\\' ∉ file.package.toList ∧ '\\' ∉ file.className.toList))

theorem backslash_not_mem_foldl_push {pieces : List String} {path : Path}
    (hpath : '\\' ∉ path.text.toList) (h : ∀ piece ∈ pieces, '\\' ∉ piece.toList) :
    '\\' ∉ (pieces.foldl Path.push path).text.toList := by
  induction pieces generalizing path with
  | nil => exact hpath
  | cons piece rest ih =>
    refine ih ?_ fun other hother => h other (List.mem_cons_of_mem _ hother)
    intro hmem
    rcases Path.mem_push_text hmem with hmem | hmem | hmem
    · exact hpath hmem
    · exact absurd hmem (by decide)
    · exact h piece List.mem_cons_self hmem

/-- A plain file stands in the index under its relative path as it is. -/
theorem Plain.key {file : SourceFile} (h : file.Plain) :
    Provenance.key file.relativePath = file.relativePath.text := by
  have hnames : ∀ name ∈ file.names, '\\' ∉ name.toList := by
    intro name hname
    rcases List.mem_append.mp hname with hsegment | hclass
    · obtain ⟨piece, hpiece, rfl⟩ := List.mem_map.mp hsegment
      rw [String.toList_ofList]
      exact fun hmem => h.2.1 (Text.mem_of_mem_segments (List.mem_filter.mp hpiece).1 hmem)
    · rw [List.mem_singleton.mp hclass]
      simpa [String.toList_append] using h.2.2
  have hfree : '\\' ∉ file.relativePath.text.toList := by
    rw [relativePath_eq]
    exact backslash_not_mem_foldl_push (by decide) hnames
  have hsame : ∀ c ∈ file.relativePath.text.toList, (if c = '\\' then '/' else c) = id c := by
    intro c hmem
    rw [if_neg, id]
    rintro rfl
    exact hfree hmem
  rw [Provenance.key, ← String.toList_inj, String.toList_map, List.map_congr_left hsame,
    List.map_id]

end SourceFile

/-! ### The index after some files -/

namespace Provenance

theorem increasing_foldl_record (files : List SourceFile) :
    Increasing (files.foldl record []) := by
  induction files using List.reverseRecOn with
  | nil => exact List.Pairwise.nil
  | append_singleton files file ih =>
    rw [List.foldl_append]
    exact Json.increasing_setMember _ _ ih

/-- **The index has the source of the last file** with a path. -/
theorem lookup_foldl_record {files : List SourceFile} {path : String} {source : Option String} :
    (files.foldl record []).lookup path = some source ↔
      ∃ file, LastWith (fun file => key file.relativePath = path) files file ∧
        file.source = source := by
  induction files using List.reverseRecOn with
  | nil => simp [not_lastWith_nil]
  | append_singleton files file ih =>
    rw [List.foldl_append, List.foldl_cons, List.foldl_nil, record, Json.lookup_setMember]
    simp only [lastWith_append_singleton]
    by_cases h : path = key file.relativePath
    · simp [h]
    · rw [if_neg h, ih]
      simp [Ne.symm h]

/-! ### Reading the index -/

/-- The source that a value stands for. -/
def sourceOf? : Json.Value → Option (Option String)
  | .string source => some (some source)
  | .null => some none
  | _ => none

/-- The index in the text of a file; none if the text is not an object of strings and nulls. -/
def ofText? (text : String) : Option Provenance :=
  match Json.Reader.fromText .anything text with
  | .ok (.object members) =>
      members.mapM fun (path, value) => (sourceOf? value).map fun source => (path, source)
  | _ => none

theorem sourceOf?_ofString? (source : Option String) :
    sourceOf? (.ofString? source) = some source := by
  cases source <;> rfl

/-- **The text of an index is read back** as the index it is. -/
theorem ofText?_text {index : Provenance} (h : Increasing index) :
    ofText? index.text = some index := by
  have hkeys : Increasing (index.map fun entry => (entry.1, Json.Value.ofString? entry.2)) := by
    rw [Increasing, List.pairwise_map]
    exact h
  have hreadsBack : ∀ source, Json.ReadsBack (.ofString? source) := by
    intro source
    cases source with
    | none => exact Json.readsBack_null
    | some text => exact Json.readsBack_string text
  have hread := Json.fromText_pretty hkeys (fun member hmem => ?_) (fun member hmem => ?_)
  · have hsource : (fun entry : String × Json.Value =>
        (sourceOf? entry.2).map fun source => (entry.1, source)) ∘
          (fun entry : String × Option String => (entry.1, Json.Value.ofString? entry.2)) =
        some := by
      funext entry
      simp [sourceOf?_ofString?]
    rw [ofText?, text, hread]
    simp only [List.mapM_map, hsource]
    exact (List.mapM_pure (m := Option) (f := id)).trans (by rw [List.map_id]; rfl)
  · obtain ⟨⟨path, source⟩, -, rfl⟩ := List.mem_map.mp hmem
    exact hreadsBack source
  · obtain ⟨⟨path, source⟩, -, rfl⟩ := List.mem_map.mp hmem
    cases source <;> rfl

end Provenance

end Wiring
