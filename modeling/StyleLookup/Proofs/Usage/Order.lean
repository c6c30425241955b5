import StyleLookup.Proofs.Discovery.Walk
import StyleLookup.Proofs.Path.Containment
import StyleLookup.Proofs.Usage.Place

/-!
The order in which usages are reported. In one file they go from the start of the text to its end,
with at most one of them for each opening quote, and the files follow each other as in the walk. Two
usages are never at the same place, whichever kinds of attributes they were found in.
-/

set_option autoImplicit false

namespace StyleLookup

namespace Attribute

/-! ## Opening quotes -/

/-- The kinds of attributes are told apart by the last two characters before the quote. -/
theorem append_opening_inj {left right : List Char} {kind other : Attribute}
    (same : left ++ kind.opening = right ++ other.opening) : left = right ∧ kind = other := by
  have lastTwo (front : List Char) (kind : Attribute) :
      (front ++ kind.opening).reverse.take 2 = kind.opening.reverse.take 2 := by
    rw [List.reverse_append, List.take_append_of_le_length (by cases kind <;> decide)]
  have ends := congrArg (fun text => text.reverse.take 2) same
  simp only [lastTwo] at ends
  obtain rfl : kind = other := by
    cases kind <;> cases other <;> first | rfl | exact absurd ends (by decide)
  exact ⟨List.append_cancel_right same, rfl⟩

namespace Mention

variable {kind other : Attribute} {name : List Char}

/-- The text up to the opening quote. -/
def opened (mention : Mention kind name) : List Char :=
  mention.lead ++ kind.opening ++ [mention.quote]

theorem opened_inj {left : Mention kind name} {right : Mention other name}
    (same : left.opened = right.opened) : left.lead = right.lead ∧ kind = other :=
  append_opening_inj (List.append_inj_left' same rfl)

end Mention

theorem Scanned.pairwise_opened_ne {kind : Attribute} {name text : List Char} {start : Nat}
    {mentions : List (Mention kind name)} (scanned : Scanned kind name text start mentions) :
    mentions.Pairwise fun left right => left.opened ≠ right.opened := by
  apply scanned.disjoint.imp
  intro left right apart same
  have lead := (Mention.opened_inj same).1
  have order := left.length_lead_lt_place.trans left.place_lt_past
  rw [lead] at order
  omega

end Attribute

namespace Usage

open Attribute (Mention)

/-! ## Order in one text -/

def Before (left right : Usage) : Prop :=
  left.line < right.line ∨ (left.line = right.line ∧ left.column < right.column)

/-- The text up to the last quote in front of a usage. -/
def opened (text : List Char) (usage : Usage) : List Char :=
  Text.dropEndWhile (! Attribute.isQuote ·)
    (text.take (text.length - (usage.onward text).length))

theorem opened_eq_of_same_place {left right : Usage} (text : List Char)
    (line : left.line = right.line) (column : left.column = right.column) :
    left.opened text = right.opened text := by
  rw [opened, opened, onward, onward, line, column]

/-- Seen from a usage, the last quote in front of it is the opening quote of its attribute. -/
theorem opened_ofOffset_place {kind : Attribute} {name : List Char} (mention : Mention kind name)
    (path : Path) :
    (ofOffset path kind mention.text mention.place).opened mention.text = mention.opened := by
  have front : mention.text =
      (mention.opened ++ mention.between) ++ mention.onward := by
    simp [Mention.text, Mention.markup, Mention.value, Mention.opened]
  have counted : mention.text.length - mention.onward.length =
      (mention.opened ++ mention.between).length := by
    rw [front, List.length_append, Nat.add_sub_cancel]
  have backwards : (mention.opened ++ mention.between).reverse = mention.between.reverse ++
      (mention.quote :: (mention.lead ++ kind.opening).reverse) := by
    simp [Mention.opened]
  rw [opened, onward_ofOffset, mention.drop_place_text, counted]
  conv_lhs => rw [front, List.take_left]
  rw [Text.dropEndWhile, backwards, Text.dropWhile_stretch, Mention.opened, List.reverse_cons,
    List.reverse_reverse]
  · intro c member
    simp [mention.between_free c (List.mem_reverse.mp member)]
  · simp [mention.quoted]

/-- Usages of one text in order. Each of them stands in an attribute of its kind, and no two of them
behind the same opening quote. -/
structure InOrder (text : List Char) (usages : List Usage) : Prop where
  increasing : usages.Pairwise Before
  opens : ∀ usage ∈ usages, ∃ lead quote, Attribute.isQuote quote = true ∧
    usage.opened text = lead ++ usage.kind.opening ++ [quote]
  opened_ne : usages.Pairwise fun left right => left.opened text ≠ right.opened text

/-- What the three searches find, one after the other. -/
def hits (path : Path) (name text : List Char) : List Usage :=
  [Attribute.classList, .className, .id].flatMap fun kind =>
    (kind.places name text).map (ofOffset path kind text)

theorem scan_eq_mergeSort (path : Path) (name text : List Char) :
    scan path name text = (hits path name text).mergeSort notAfter := rfl

section Scan

variable {name : List Char}

theorem exists_mention_of_mem_scan (named : name ≠ []) {path : Path} {text : List Char}
    {usage : Usage} (found : usage ∈ scan path name text) :
    ∃ mention : Mention usage.kind name, usage.opened text = mention.opened := by
  obtain ⟨kind, offset, member, rfl⟩ := mem_scan_iff.mp found
  obtain ⟨mentions, places, scanned⟩ := Attribute.exists_scanned_places named kind text
  rw [places] at member
  obtain ⟨mention, listed, rfl⟩ := List.mem_map.mp member
  obtain rfl := scanned.text_eq mention listed
  exact ⟨mention, opened_ofOffset_place mention path⟩

theorem pairwise_opened_ne_hits (named : name ≠ []) (path : Path) (text : List Char) :
    (hits path name text).Pairwise fun left right => left.opened text ≠ right.opened text := by
  rw [hits, List.pairwise_flatMap]
  constructor
  · -- Of one kind, no attribute is found twice.
    intro kind _
    obtain ⟨mentions, places, scanned⟩ := Attribute.exists_scanned_places named kind text
    rw [places, List.pairwise_map, List.pairwise_map]
    apply scanned.pairwise_opened_ne.imp_of_mem
    intro left right leftMember rightMember apart same
    apply apart
    rw [← opened_ofOffset_place left path, ← opened_ofOffset_place right path,
      scanned.text_eq left leftMember, scanned.text_eq right rightMember, same]
  · -- Of two kinds, the quotes differ by what stands in front of them.
    have distinct : [Attribute.classList, .className, .id].Pairwise (· ≠ ·) := by decide
    apply distinct.imp
    intro kind other apart left leftMember right rightMember same
    obtain ⟨leftPlace, leftFound, rfl⟩ := List.mem_map.mp leftMember
    obtain ⟨rightPlace, rightFound, rfl⟩ := List.mem_map.mp rightMember
    obtain ⟨leftMention, leftOpened⟩ :=
      exists_mention_of_mem_scan named (mem_scan_iff.mpr ⟨kind, leftPlace, leftFound, rfl⟩)
    obtain ⟨rightMention, rightOpened⟩ :=
      exists_mention_of_mem_scan named (mem_scan_iff.mpr ⟨other, rightPlace, rightFound, rfl⟩)
    rw [leftOpened, rightOpened] at same
    exact apart (Mention.opened_inj same).2

theorem notAfter_iff {left right : Usage} : notAfter left right = true ↔
    left.line < right.line ∨ (left.line = right.line ∧ left.column ≤ right.column) := by
  simp [notAfter]

theorem pairwise_notAfter_scan (path : Path) (name text : List Char) :
    (scan path name text).Pairwise fun left right => notAfter left right = true := by
  rw [scan_eq_mergeSort]
  apply List.pairwise_mergeSort
  · intro first second third
    simp only [notAfter_iff]
    omega
  · intro left right
    simp only [Bool.or_eq_true, notAfter_iff]
    omega

theorem inOrder_scan (named : name ≠ []) (path : Path) (text : List Char) :
    InOrder text (scan path name text) := by
  have opened_ne : (scan path name text).Pairwise fun left right =>
      left.opened text ≠ right.opened text := by
    rw [scan_eq_mergeSort, (List.mergeSort_perm _ _).pairwise_iff Ne.symm]
    exact pairwise_opened_ne_hits named path text
  refine ⟨?_, ?_, opened_ne⟩
  · apply (pairwise_notAfter_scan path name text).imp₂ _ opened_ne
    intro left right order apart
    rw [notAfter_iff] at order
    have moved : ¬ (left.line = right.line ∧ left.column = right.column) :=
      fun same => apart (opened_eq_of_same_place text same.1 same.2)
    rw [Before]
    omega
  · intro usage found
    obtain ⟨mention, opened⟩ := exists_mention_of_mem_scan named found
    exact ⟨mention.lead, mention.quote, mention.quoted, opened⟩

end Scan

/-- The usages of a token in the text of one file. -/
def usagesIn (token : String) (path : Path) (text : List Char) : List Usage :=
  if searchedName token = [] then [] else scan path (searchedName token) text

theorem path_of_mem_usagesIn {token : String} {path : Path} {text : List Char} {usage : Usage}
    (member : usage ∈ usagesIn token path text) : usage.path = path := by
  unfold usagesIn at member
  split at member
  · cases member
  · obtain ⟨kind, offset, -, rfl⟩ := mem_scan_iff.mp member
    rfl

theorem inOrder_usagesIn (token : String) (path : Path) (text : List Char) :
    InOrder text (usagesIn token path text) := by
  unfold usagesIn
  split
  · exact ⟨.nil, List.forall_mem_nil _, .nil⟩
  · rename_i named
    exact inOrder_scan named path text

end Usage

/-! ## The files of a walk -/

/-- Entries are listed by single names. -/
def Snapshot.ListsNames (fs : Snapshot) : Prop :=
  ∀ directory, ∀ entry ∈ fs.listing directory, Path.Component.Spelled (.name entry.name)

namespace Discovery

variable {fs : Snapshot} {scoping : Scoping} {wanted : String → Bool}

theorem reached_place {names : List String}
    (spelled : ∀ name ∈ names, Path.Component.Spelled (.name name)) (root : Path) :
    (place root names).reached = (names.map .name).reverse ++ root.reached := by
  induction names generalizing root with
  | nil => rfl
  | cons name names ih =>
      obtain ⟨first, later⟩ := List.forall_mem_cons.mp spelled
      have onward : place root (name :: names) = place (root.child name) names := rfl
      rw [onward, ih later, Path.reached_child first, List.map_cons, List.reverse_cons,
        List.append_assoc, List.singleton_append]

theorem spelled_of_leadsDown (named : fs.ListsNames) {directory : Path}
    {names : List String} (leads : LeadsDown fs scoping directory names) :
    ∀ name ∈ names, Path.Component.Spelled (.name name) := by
  induction names generalizing directory with
  | nil => exact List.forall_mem_nil _
  | cons name names ih =>
      obtain ⟨enters, further⟩ := leads
      obtain ⟨entry, member, rfl, -⟩ := Snapshot.exists_mem_listing_iff.mpr enters
      exact List.forall_mem_cons.mpr ⟨named directory entry member, ih further⟩

theorem spelled_of_mem_sheetsOf (named : fs.ListsNames) (orderly : fs.Orderly)
    {levels : Nat} {root : Path} {sheet : List String × String}
    (member : sheet ∈ sheetsOf (stops fs scoping wanted levels root)) :
    ∀ name ∈ sheet.1 ++ [sheet.2], Path.Component.Spelled (.name name) := by
  obtain ⟨-, leads, wants⟩ := (mem_stops_iff orderly).mp (mem_sheetsOf_iff.mp member)
  obtain ⟨entry, listed, same, -⟩ := Snapshot.exists_mem_listing_iff.mpr (wants sheet.2 rfl)
  have last : Path.Component.Spelled (.name sheet.2) := same ▸ named _ entry listed
  exact List.forall_mem_append.mpr
    ⟨spelled_of_leadsDown named leads, List.forall_mem_singleton.mpr last⟩

/-- A walk finds no file twice under the same path. -/
theorem pairwise_sameAs_run_walk (orderly : fs.Orderly) (named : fs.ListsNames) (root : Path) :
    (walk fs scoping wanted root).run.Pairwise fun left right => left.sameAs right = false := by
  have found : (walk fs scoping wanted root).run =
      (sheetsOf (stops fs scoping wanted scoping.scanDepth root)).map fun sheet =>
        place root (sheet.1 ++ [sheet.2]) := by
    simp only [place, List.foldl_append]
    exact filesBelow_snapshot orderly scoping.scanDepth root
  rw [found, List.pairwise_map]
  apply (pairwise_sheetsOf (pairwise_stops orderly _ root)).imp_of_mem
  intro left right leftMember rightMember before
  rw [← Bool.not_eq_true, Path.sameAs, beq_iff_eq]
  intro same
  have reached : (place root (left.1 ++ [left.2])).reached =
      (place root (right.1 ++ [right.2])).reached := by
    rw [Path.reached, same, Path.reached]
  rw [reached_place (spelled_of_mem_sheetsOf named orderly leftMember),
    reached_place (spelled_of_mem_sheetsOf named orderly rightMember)] at reached
  have names := List.reverse_injective (List.append_cancel_right reached)
  rw [List.map_injective_iff.mpr (fun _ _ => Path.Component.name.inj) names] at before
  exact List.lt_irrefl _ before

end Discovery

/-! ## Order in a workspace -/

namespace Usage

variable {fs : Snapshot} {token : String}

/-- The usages of a token in one file; none if it cannot be read. -/
def usagesAt (fs : Snapshot) (token : String) (path : Path) : List Usage :=
  match fs.readText path with
  | .ok content => usagesIn token path content.toList
  | .error _ => []

theorem path_of_mem_usagesAt {path : Path} {usage : Usage}
    (member : usage ∈ usagesAt fs token path) : usage.path = path := by
  unfold usagesAt at member
  split at member
  · exact path_of_mem_usagesIn member
  · cases member

theorem run_find_eq_flatMap (scoping : Scoping) (extensions : List String) (root : Path) :
    (find fs scoping extensions token root).run =
      (Discovery.walk fs scoping (hasExtension extensions) root).run.flatMap
        (usagesAt fs token) := by
  by_cases unnamed : searchedName token = []
  · have nothing (path : Path) : usagesAt fs token path = [] := by
      unfold usagesAt
      split <;> simp [usagesIn, unnamed]
    simp [find, unnamed, nothing]
  · rw [run_find_of_searchedName_ne_nil unnamed]
    apply List.flatMap_congr
    intro path _
    simp only [usagesAt, usagesIn, if_neg unnamed]
    rfl

def SamePlace (left right : Usage) : Prop :=
  left.path.sameAs right.path = true ∧ left.line = right.line ∧ left.column = right.column

theorem pairwise_not_samePlace_usagesAt (fs : Snapshot) (token : String) (path : Path) :
    (usagesAt fs token path).Pairwise fun left right => ¬ SamePlace left right := by
  unfold usagesAt
  split
  · apply (inOrder_usagesIn token path _).increasing.imp
    rintro left right before ⟨-, line, column⟩
    rw [Before] at before
    omega
  · exact .nil

/-- The usages in one file are in order, whatever its text; the files follow each other as in the
walk; and if the listings name each entry once, then no place is reported twice. -/
theorem usages_in_order (fs : Snapshot) (scoping : Scoping) (extensions : List String)
    (token : String) (root : Path) :
    (∀ path text, InOrder text (usagesIn token path text)) ∧
      (find fs scoping extensions token root).run =
        (Discovery.walk fs scoping (hasExtension extensions) root).run.flatMap
          (usagesAt fs token) ∧
      (fs.Orderly → fs.ListsNames →
        (find fs scoping extensions token root).run.Pairwise fun left right =>
          ¬ SamePlace left right) := by
  refine ⟨inOrder_usagesIn token, run_find_eq_flatMap scoping extensions root, ?_⟩
  intro orderly named
  rw [run_find_eq_flatMap, List.pairwise_flatMap]
  refine ⟨fun path _ => pairwise_not_samePlace_usagesAt fs token path, ?_⟩
  apply (Discovery.pairwise_sameAs_run_walk orderly named root).imp
  rintro path other apart left leftMember right rightMember ⟨same, -⟩
  rw [path_of_mem_usagesAt leftMember, path_of_mem_usagesAt rightMember, apart] at same
  cases same

/-- A workspace that holds itself by way of a link; all its files hold the same markup. -/
def mirrored : Snapshot :=
  { Discovery.selfNested with
    readText := fun _ => .ok "<p class='é b' id=\"b\">\n<p className=\"b b\">" }

/-- Usages of three kinds, two of them on one line, in two files. -/
theorem mirrored_in_order :
    mirrored.Orderly ∧ mirrored.ListsNames ∧
      (find mirrored { Scoping.standard with maxScanDepth := 1 } ["css"] "#b" ⟨"/w"⟩).run =
        [⟨⟨"/w/again/a.css"⟩, 0, 12, .classList⟩, ⟨⟨"/w/again/a.css"⟩, 0, 19, .id⟩,
          ⟨⟨"/w/again/a.css"⟩, 1, 14, .className⟩, ⟨⟨"/w/a.css"⟩, 0, 12, .classList⟩,
          ⟨⟨"/w/a.css"⟩, 0, 19, .id⟩, ⟨⟨"/w/a.css"⟩, 1, 14, .className⟩] ∧
      (find mirrored { Scoping.standard with maxScanDepth := 1 } ["css"] "#b" ⟨"/w"⟩).run.Pairwise
        fun left right => ¬ SamePlace left right := by
  have orderly : mirrored.Orderly :=
    ⟨Discovery.selfNested_orderly.path_eq, Discovery.selfNested_orderly.names_nodup⟩
  have named : mirrored.ListsNames := by
    intro directory entry member
    obtain ⟨found, listed, inside⟩ := Snapshot.mem_listing_iff.mp member
    have spelled : ∀ name ∈ ["again", "sealed", "a.css"],
        Path.Component.Spelled (.name name) := by decide
    simp only [mirrored, Discovery.selfNested] at listed
    split at listed
    · cases listed
    · cases listed
      simp only [List.mem_cons, List.not_mem_nil, or_false] at inside
      rcases inside with rfl | rfl | rfl <;> exact spelled _ (by simp)
  have order := usages_in_order mirrored { Scoping.standard with maxScanDepth := 1 } ["css"] "#b"
    ⟨"/w"⟩
  refine ⟨orderly, named, ?_, order.2.2 orderly named⟩
  have walked : (Discovery.walk mirrored { Scoping.standard with maxScanDepth := 1 }
      (hasExtension ["css"]) ⟨"/w"⟩).run = [⟨"/w/again/a.css"⟩, ⟨"/w/a.css"⟩] := by
    decide +kernel
  have hit : ∀ path ∈ [(⟨"/w/again/a.css"⟩ : Path), ⟨"/w/a.css"⟩],
      hits path "b".toList "<p class='é b' id=\"b\">\n<p className=\"b b\">".toList =
        [⟨path, 0, 12, .classList⟩, ⟨path, 1, 14, .className⟩, ⟨path, 0, 19, .id⟩] := by
    decide +kernel
  have found : ∀ path ∈ [(⟨"/w/again/a.css"⟩ : Path), ⟨"/w/a.css"⟩],
      usagesAt mirrored "#b" path =
        [⟨path, 0, 12, .classList⟩, ⟨path, 0, 19, .id⟩, ⟨path, 1, 14, .className⟩] := by
    intro path listed
    have name : searchedName "#b" = "b".toList := by decide
    simp only [usagesAt, mirrored, usagesIn, name, scan_eq_mergeSort, hit path listed]
    simp [List.mergeSort, List.MergeSort.Internal.splitInTwo, notAfter]
  rw [order.2.1, walked, List.flatMap_cons, List.flatMap_singleton, found _ (by simp),
    found _ (by simp)]
  rfl

end Usage

end StyleLookup
