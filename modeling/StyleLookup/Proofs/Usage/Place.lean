import Mathlib.Data.List.Induction
import StyleLookup.Proofs.Usage.Mention
import StyleLookup.Usage.Basic

/-!
Where usages point. Lines and columns lead back to the place in the text at which the search has
found a name, so what stands there can be read off the text that was read.
-/

set_option autoImplicit false

namespace StyleLookup

namespace Text

/-! ## Lines and columns -/

/-- A text without its first line and the line feed that ends it. -/
def dropLine (text : List Char) : List Char := (text.dropWhile (· != '\n')).tail

def dropLines : Nat → List Char → List Char
  | 0, text => text
  | lines + 1, text => dropLine (dropLines lines text)

/-- The characters of a text since its last line feed. -/
def lastLine (text : List Char) : List Char := (text.reverse.takeWhile (· != '\n')).reverse

theorem lastLine_append_singleton (text : List Char) (c : Char) :
    lastLine (text ++ [c]) = if c = '\n' then [] else lastLine text ++ [c] := by
  rw [lastLine, List.reverse_append, List.reverse_singleton, List.singleton_append,
    List.takeWhile_cons]
  split <;> simp_all [lastLine]

theorem newline_not_mem_lastLine (text : List Char) : '\n' ∉ lastLine text := by
  intro member
  have other := List.mem_takeWhile_imp (List.mem_reverse.mp member)
  simp at other

/-- The lines that end in the first part of a text are dropped up to the line that it breaks off. -/
theorem dropLines_count_append (front back : List Char) :
    dropLines (front.count '\n') (front ++ back) = lastLine front ++ back := by
  induction front using List.reverseRecOn generalizing back with
  | nil => rfl
  | append_singleton front c ih =>
      rw [List.append_assoc, List.singleton_append, lastLine_append_singleton]
      by_cases newline : c = '\n'
      · subst newline
        rw [List.count_append, List.count_singleton_self, dropLines, ih, dropLine,
          dropWhile_ne_mark (newline_not_mem_lastLine front)]
        rfl
      · have same : (front ++ [c]).count '\n' = front.count '\n' := by
          simp [List.count_append, newline]
        rw [same, ih, if_neg newline, List.append_assoc, List.singleton_append]

end Text

namespace Usage

/-- What a text has from the place of a usage on. -/
def onward (usage : Usage) (text : List Char) : List Char :=
  (Text.dropLines usage.line text).drop usage.column

theorem drop_dropLines_position (text : List Char) (offset : Nat) :
    (Text.dropLines (position text offset).1 text).drop (position text offset).2 =
      text.drop offset := by
  have lines := Text.dropLines_count_append (text.take offset) (text.drop offset)
  rw [List.take_append_drop] at lines
  have column : (position text offset).2 = (Text.lastLine (text.take offset)).length := by
    rw [Text.lastLine, List.length_reverse]
    rfl
  rw [column]
  change (Text.dropLines ((text.take offset).count '\n') text).drop _ = _
  rw [lines, List.drop_left]

/-! ## Usages in one text and in a workspace -/

def ofOffset (path : Path) (kind : Attribute) (text : List Char) (offset : Nat) : Usage :=
  ⟨path, (position text offset).1, (position text offset).2, kind⟩

theorem onward_ofOffset (path : Path) (kind : Attribute) (text : List Char) (offset : Nat) :
    (ofOffset path kind text offset).onward text = text.drop offset :=
  drop_dropLines_position text offset

theorem mem_scan_iff {path : Path} {name text : List Char} {usage : Usage} :
    usage ∈ scan path name text ↔
      ∃ kind, ∃ offset ∈ Attribute.places kind name text,
        ofOffset path kind text offset = usage := by
  rw [scan, List.mem_mergeSort, List.mem_flatMap]
  constructor
  · intro found
    obtain ⟨kind, -, member⟩ := found
    exact ⟨kind, List.mem_map.mp member⟩
  · intro found
    obtain ⟨kind, member⟩ := found
    exact ⟨kind, by cases kind <;> simp, List.mem_map.mpr member⟩

variable {fs : Snapshot} {scoping : Scoping} {extensions : List String} {token : String}
  {root : Path} {usage : Usage}

theorem mem_run_inFile_iff {name : List Char} {path : Path} :
    usage ∈ (inFile fs name path).run ↔
      ∃ content, fs.readText path = .ok content ∧ usage ∈ scan path name content.toList := by
  change usage ∈ (match fs.readText path with
    | .ok content => scan path name content.toList
    | .error _ => []) ↔ _
  cases fs.readText path with
  | ok content =>
      constructor
      · exact fun member => ⟨content, rfl, member⟩
      · intro found
        obtain ⟨_, same, member⟩ := found
        cases same
        exact member
  | error fault => simp

theorem run_find_of_searchedName_ne_nil (named : searchedName token ≠ []) :
    (find fs scoping extensions token root).run =
      (Discovery.walk fs scoping (hasExtension extensions) root).run.flatMap fun path =>
        (inFile fs (searchedName token) path).run := by
  simp only [find, List.isEmpty_iff, if_neg named]
  exact congrArg List.flatten List.idRun_mapM

theorem mem_run_find_iff :
    usage ∈ (find fs scoping extensions token root).run ↔
      searchedName token ≠ [] ∧
        usage.path ∈ (Discovery.walk fs scoping (hasExtension extensions) root).run ∧
          ∃ content, fs.readText usage.path = .ok content ∧
            ∃ offset ∈ usage.kind.places (searchedName token) content.toList,
              ofOffset usage.path usage.kind content.toList offset = usage := by
  by_cases named : searchedName token = []
  · simp [find, named]
  · rw [run_find_of_searchedName_ne_nil named, List.mem_flatMap, ne_eq, iff_true_intro named,
      true_and]
    simp only [mem_run_inFile_iff, mem_scan_iff]
    constructor
    · intro listed
      obtain ⟨path, member, content, read, kind, offset, found, rfl⟩ := listed
      exact ⟨member, content, read, offset, found, rfl⟩
    · intro listed
      obtain ⟨member, content, read, offset, found, same⟩ := listed
      exact ⟨usage.path, member, content, read, usage.kind, offset, found, same⟩

/-- What is reported is the first place in an attribute at which the name stands as it should, and
line and column lead to it. -/
theorem exists_first_mention_of_mem_find
    (reported : usage ∈ (find fs scoping extensions token root).run) :
    ∃ content, fs.readText usage.path = .ok content ∧
      ∃ mention : Attribute.Mention usage.kind (searchedName token),
        mention.text = content.toList ∧ mention.IsFirst ∧
          usage.onward content.toList =
            searchedName token ++ (mention.inner ++ mention.closing :: mention.rest) := by
  obtain ⟨named, -, content, read, offset, found, same⟩ := mem_run_find_iff.mp reported
  obtain ⟨mentions, places, scanned⟩ :=
    Attribute.exists_scanned_places named usage.kind content.toList
  rw [places] at found
  obtain ⟨mention, member, rfl⟩ := List.mem_map.mp found
  have whole := scanned.text_eq mention member
  refine ⟨content, read, mention, whole, scanned.isFirst mention member, ?_⟩
  calc usage.onward content.toList
    _ = content.toList.drop mention.place := by
      rw [← onward_ofOffset usage.path usage.kind, same]
    _ = mention.onward := by rw [← whole, mention.drop_place_text]

def onePage (content : String) : Snapshot where
  readDir directory :=
    if directory = ⟨"/w"⟩ then .ok [⟨⟨"/w/i.html"⟩, "i.html", .file⟩] else .error .notFound
  readText path := if path = ⟨"/w/i.html"⟩ then .ok content else .error .notFound
  isFile path := path == ⟨"/w/i.html"⟩
  isDir path := path == ⟨"/w"⟩

theorem walk_onePage (content : String) :
    (Discovery.walk (onePage content) .standard (hasExtension ["html"]) ⟨"/w"⟩).run =
      [⟨"/w/i.html"⟩] := by
  rfl

/-- On the second line, the name stands alone only behind a longer name. -/
theorem second_word_found :
    let page := onePage "\n<p class='né é\">"
    let usage : Usage := ⟨⟨"/w/i.html"⟩, 1, 13, .classList⟩
    usage ∈ (find page .standard ["html"] " .é" ⟨"/w"⟩).run ∧
      ∃ content, page.readText usage.path = .ok content ∧
        ∃ mention : Attribute.Mention usage.kind (searchedName " .é"),
          mention.text = content.toList ∧ mention.IsFirst ∧
            usage.onward content.toList =
              searchedName " .é" ++ (mention.inner ++ mention.closing :: mention.rest) := by
  intro page usage
  have reported : usage ∈ (find page .standard ["html"] " .é" ⟨"/w"⟩).run := by decide +kernel
  exact ⟨reported, exists_first_mention_of_mem_find reported⟩

end Usage

end StyleLookup
