import Mathlib.Data.List.Nodup
import StyleLookup.Proofs.Toml.Document
import StyleLookup.Scoping.Toml

/-!
Scoping settings that are written as a TOML document are read back. A document with only some of
the written settings, in any order, changes no other setting from its standard value.
-/

set_option autoImplicit false

namespace StyleLookup

namespace Toml

theorem texts?_map_text (items : List String) :
    (Node.array (items.map .text)).texts? = some items := by
  rw [Node.texts?]
  induction items with
  | nil => rfl
  | cons item items ih =>
      rw [List.map_cons, List.mapM_cons, ih]
      rfl

theorem find?_nodes (settings : List (String × Setting)) (key : String) :
    (nodes settings).find? key = (settings.lookup key).map Setting.node := by
  induction settings with
  | nil => rfl
  | cons entry settings ih =>
      rw [Entries.find?, nodes] at ih
      rw [Entries.find?, nodes, List.map_cons, List.lookup_cons, List.lookup_cons, ih]
      cases key == entry.1 <;> rfl

theorem setting?_nodes {α : Type} {settings : List (String × Setting)} {key : String}
    {setting : Setting} (only : ∀ other, (key, other) ∈ settings → other = setting)
    {read? : Node → Option α} {value : α} (reads : read? setting.node = some value) (standard : α) :
    (nodes settings).setting? key standard read? =
      some (if key ∈ settings.map Prod.fst then value else standard) := by
  rw [Entries.setting?, find?_nodes]
  cases found : settings.lookup key with
  | none =>
      rw [List.lookup_eq_none_iff] at found
      have absent : key ∉ settings.map Prod.fst := by
        intro present
        obtain ⟨entry, member, same⟩ := List.mem_map.mp present
        exact bne_iff_ne.mp (found entry member) same.symm
      rw [Option.map_none, if_neg absent]
  | some other =>
      obtain ⟨before, after, split, -⟩ := List.lookup_eq_some_iff.mp found
      have member : (key, other) ∈ settings :=
        split ▸ List.mem_append_right before List.mem_cons_self
      rw [Option.map_some, if_pos (List.mem_map_of_mem member), only other member]
      exact reads

end Toml

namespace Scoping

def keys : List String :=
  ["mode", "file-extensions", "fallback-to-global", "common-directories", "file-name-patterns",
    "exclude-directories", "max-scan-depth"]

/-- The settings of some keys, and the standard ones otherwise. -/
def restrictedTo (scoping : Scoping) (told : List String) : Scoping where
  mode := if "mode" ∈ told then scoping.mode else standard.mode
  fileExtensions :=
    if "file-extensions" ∈ told then scoping.fileExtensions else standard.fileExtensions
  fallbackToGlobal :=
    if "fallback-to-global" ∈ told then scoping.fallbackToGlobal else standard.fallbackToGlobal
  commonDirectories :=
    if "common-directories" ∈ told then scoping.commonDirectories else standard.commonDirectories
  fileNamePatterns :=
    if "file-name-patterns" ∈ told then scoping.fileNamePatterns else standard.fileNamePatterns
  excludeDirectories :=
    if "exclude-directories" ∈ told then scoping.excludeDirectories
    else standard.excludeDirectories
  maxScanDepth := if "max-scan-depth" ∈ told then scoping.maxScanDepth else standard.maxScanDepth

theorem map_fst_settings (scoping : Scoping) : scoping.settings.map Prod.fst = keys := rfl

theorem restrictedTo_keys (scoping : Scoping) : scoping.restrictedTo keys = scoping := by
  simp [restrictedTo, keys]

theorem isWritable {scoping : Scoping} (least : Toml.wholeLeast ≤ scoping.maxScanDepth)
    (greatest : scoping.maxScanDepth ≤ Toml.wholeGreatest) {told : List (String × Toml.Setting)}
    (written : told ⊆ scoping.settings) (distinct : (told.map Prod.fst).Nodup) :
    Toml.IsWritable told where
  bare entry member := by
    have known : entry.1 ∈ keys := List.mem_map_of_mem (written member)
    have bare : ∀ key ∈ keys, Toml.IsBareKey key := by decide
    exact bare entry.1 known
  held entry member := by
    have held : ∀ entry ∈ scoping.settings, entry.2.IsHeld := by
      simp [settings, Toml.Setting.IsHeld, least, greatest]
    exact held entry (written member)
  distinct := distinct

theorem nodup_keys : keys.Nodup := by decide

theorem eq_of_key_eq (scoping : Scoping) {first second : String × Toml.Setting}
    (firstTold : first ∈ scoping.settings) (secondTold : second ∈ scoping.settings)
    (same : first.1 = second.1) : first = second := by
  have distinct : (scoping.settings.map Prod.fst).Nodup := nodup_keys
  exact List.inj_on_of_nodup_map distinct firstTold secondTold same

section

variable {scoping : Scoping} {told : List (String × Toml.Setting)}
  (written : told ⊆ scoping.settings)
include written

theorem setting?_told {α : Type} {key : String} {setting : Toml.Setting}
    (entry : (key, setting) ∈ scoping.settings) (read? : Toml.Node → Option α) {value : α}
    (reads : read? setting.node = some value) (standard : α) :
    (Toml.nodes told).setting? key standard read? =
      some (if key ∈ told.map Prod.fst then value else standard) := by
  refine Toml.setting?_nodes (fun other member => ?_) reads standard
  exact congrArg Prod.snd (scoping.eq_of_key_eq (written member) entry rfl)

theorem ofEntries?_nodes :
    ofEntries? (Toml.nodes told) = some (scoping.restrictedTo (told.map Prod.fst)) := by
  have mode := setting?_told written
    (show ("mode", .text scoping.mode.name) ∈ scoping.settings by simp [settings])
    Toml.Node.mode? (Mode.ofName?_name scoping.mode) standard.mode
  have fileExtensions := setting?_told written
    (show ("file-extensions", .list scoping.fileExtensions) ∈ scoping.settings by simp [settings])
    Toml.Node.texts? (Toml.texts?_map_text _) standard.fileExtensions
  have fallbackToGlobal := setting?_told written
    (show ("fallback-to-global", .flag scoping.fallbackToGlobal) ∈ scoping.settings by
      simp [settings])
    Toml.Node.flag? rfl standard.fallbackToGlobal
  have commonDirectories := setting?_told written
    (show ("common-directories", .list scoping.commonDirectories) ∈ scoping.settings by
      simp [settings])
    Toml.Node.texts? (Toml.texts?_map_text _) standard.commonDirectories
  have fileNamePatterns := setting?_told written
    (show ("file-name-patterns", .list scoping.fileNamePatterns) ∈ scoping.settings by
      simp [settings])
    Toml.Node.texts? (Toml.texts?_map_text _) standard.fileNamePatterns
  have excludeDirectories := setting?_told written
    (show ("exclude-directories", .list scoping.excludeDirectories) ∈ scoping.settings by
      simp [settings])
    Toml.Node.texts? (Toml.texts?_map_text _) standard.excludeDirectories
  have maxScanDepth := setting?_told written
    (show ("max-scan-depth", .whole scoping.maxScanDepth) ∈ scoping.settings by simp [settings])
    Toml.Node.whole? rfl standard.maxScanDepth
  rw [ofEntries?, mode, fileExtensions, fallbackToGlobal, commonDirectories, fileNamePatterns,
    excludeDirectories, maxScanDepth]
  rfl

end

theorem ofToml?_writeDocument {scoping : Scoping} (least : Toml.wholeLeast ≤ scoping.maxScanDepth)
    (greatest : scoping.maxScanDepth ≤ Toml.wholeGreatest) {told : List (String × Toml.Setting)}
    (written : told ⊆ scoping.settings) (distinct : told.Nodup) :
    ofToml? (String.ofList (Toml.writeDocument told)) =
      some (scoping.restrictedTo (told.map Prod.fst)) := by
  have distinctKeys : (told.map Prod.fst).Nodup :=
    distinct.map_on fun first firstTold second secondTold =>
      scoping.eq_of_key_eq (written firstTold) (written secondTold)
  rw [ofToml?, String.toList_ofList,
    Toml.document?_writeDocument (isWritable least greatest written distinctKeys)]
  exact ofEntries?_nodes written

/-- Settings are read back from the document that is written for them. The document may be cut down
to some of its settings, in any order, and the others are the standard ones then. -/
theorem settings_survive (scoping : Scoping) (least : Toml.wholeLeast ≤ scoping.maxScanDepth)
    (greatest : scoping.maxScanDepth ≤ Toml.wholeGreatest) :
    ofToml? scoping.toToml = some scoping ∧
      ∀ told : List (String × Toml.Setting), told ⊆ scoping.settings → told.Nodup →
        ofToml? (String.ofList (Toml.writeDocument told)) =
          some (scoping.restrictedTo (told.map Prod.fst)) := by
  have distinct : scoping.settings.Nodup := List.Nodup.of_map Prod.fst nodup_keys
  refine ⟨?_, fun told written => ofToml?_writeDocument least greatest written⟩
  rw [toToml, ofToml?_writeDocument least greatest (List.Subset.refl _) distinct,
    map_fst_settings, restrictedTo_keys]

/-- Settings whose strings need each of the written forms. -/
def oddities : Scoping where
  mode := .folder
  fileExtensions := []
  fallbackToGlobal := false
  commonDirectories := ["", "\"größe\"", "it's\t\"mine\"", "two\nlines"]
  fileNamePatterns := ["C:\\styles\n", "'''\n\"\"\"\"\"\r"]
  excludeDirectories := ["'\x00\x08\x0C\x1B\x7F\\\""]
  maxScanDepth := Toml.wholeLeast

theorem oddities_survive :
    (Toml.wholeLeast ≤ oddities.maxScanDepth ∧ oddities.maxScanDepth ≤ Toml.wholeGreatest) ∧
      ofToml? oddities.toToml = some oddities ∧
      ofToml? (String.ofList (Toml.writeDocument
        [("max-scan-depth", .whole Toml.wholeLeast), ("mode", .text "folder")])) =
          some { standard with mode := .folder, maxScanDepth := Toml.wholeLeast } := by
  have least : Toml.wholeLeast ≤ oddities.maxScanDepth := Int.le_refl Toml.wholeLeast
  have greatest : oddities.maxScanDepth ≤ Toml.wholeGreatest := by decide
  have survive := settings_survive oddities least greatest
  exact ⟨⟨least, greatest⟩, survive.1, survive.2 _ (by simp [settings, oddities, Mode.name])
    (by decide)⟩

end Scoping

end StyleLookup
