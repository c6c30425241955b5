import Mathlib.Data.List.TakeWhile
import StyleLookup.Text.Blank

/-!
Laws of the two ways in which texts are cut throughout this library: a stretch of characters of one
class ends where the class does, and trimming takes away exactly the white space at both ends.
-/

set_option autoImplicit false

namespace StyleLookup.Text

section Stretch

variable {inside : Char → Bool} {stretch rest : List Char}

/-- A stretch of a class is taken whole if what follows it starts with a character outside. -/
theorem takeWhile_stretch (all : ∀ c ∈ stretch, inside c = true)
    (stop : ∀ c ∈ rest.head?, inside c = false) : (stretch ++ rest).takeWhile inside = stretch := by
  rw [List.takeWhile_append_of_pos all]
  cases rest with
  | nil => simp
  | cons c rest => simp [stop c rfl]

theorem dropWhile_eq_self (stop : ∀ c ∈ rest.head?, inside c = false) :
    rest.dropWhile inside = rest := by
  cases rest with
  | nil => rfl
  | cons c rest => simp [stop c rfl]

theorem dropWhile_stretch (all : ∀ c ∈ stretch, inside c = true)
    (stop : ∀ c ∈ rest.head?, inside c = false) : (stretch ++ rest).dropWhile inside = rest := by
  rw [List.dropWhile_append_of_pos all, dropWhile_eq_self stop]

theorem takeWhile_append_outside (outside : ∀ c ∈ rest, inside c = false) (text : List Char) :
    (text ++ rest).takeWhile inside = text.takeWhile inside := by
  induction text with
  | nil =>
      cases rest with
      | nil => rfl
      | cons c rest => simp [outside c List.mem_cons_self]
  | cons c text ih => by_cases member : inside c = true <;> simp [member, ih]

theorem dropWhile_append_outside (outside : ∀ c ∈ rest, inside c = false) (text : List Char) :
    (text ++ rest).dropWhile inside = text.dropWhile inside ++ rest := by
  induction text with
  | nil =>
      cases rest with
      | nil => rfl
      | cons c rest => simp [outside c List.mem_cons_self]
  | cons c text ih => by_cases member : inside c = true <;> simp [member, ih]

theorem outside_of_mem_head?_dropWhile {text : List Char} {c : Char}
    (first : c ∈ (text.dropWhile inside).head?) : inside c = false := by
  have outside := List.head?_dropWhile_not inside text
  rw [Option.mem_def.mp first] at outside
  exact outside

/-- A piece that starts outside the class stays when a stretch of it is dropped. -/
theorem infix_dropWhile {piece text : List Char} (first : ∀ c ∈ piece.head?, inside c = false)
    (held : piece <:+: text) : piece <:+: text.dropWhile inside := by
  induction text with
  | nil => exact held
  | cons c text ih =>
      by_cases member : inside c = true
      · rw [List.dropWhile_cons_of_pos member]
        rcases List.infix_cons_iff.mp held with start | later
        · rcases List.prefix_cons_iff.mp start with rfl | ⟨more, rfl, -⟩
          · exact List.nil_infix
          · rw [first c rfl] at member
            cases member
        · exact ih later
      · rwa [List.dropWhile_cons_of_neg member]

theorem suffix_of_dropWhile_eq_cons {text : List Char} {c : Char}
    (cut : text.dropWhile inside = c :: rest) : rest <:+ text :=
  (List.suffix_cons c rest).trans (cut ▸ List.dropWhile_suffix inside)

end Stretch

section Mark

variable {mark : Char} {stretch : List Char}

theorem all_ne_of_not_mem (absent : mark ∉ stretch) : ∀ c ∈ stretch, (c != mark) = true := by
  intro c member
  exact bne_iff_ne.mpr fun same => absent (same ▸ member)

theorem takeWhile_ne_mark (absent : mark ∉ stretch) (rest : List Char) :
    (stretch ++ mark :: rest).takeWhile (· != mark) = stretch :=
  takeWhile_stretch (all_ne_of_not_mem absent) (by simp)

theorem dropWhile_ne_mark (absent : mark ∉ stretch) (rest : List Char) :
    (stretch ++ mark :: rest).dropWhile (· != mark) = mark :: rest :=
  dropWhile_stretch (all_ne_of_not_mem absent) (by simp)

theorem not_mem_takeWhile_ne (mark : Char) (text : List Char) :
    mark ∉ text.takeWhile (· != mark) := by
  intro inside
  simpa using List.mem_takeWhile_imp inside

/-- A text is cut in one way only at its first mark. -/
theorem append_mark_inj {other left right : List Char} (stretchFree : mark ∉ stretch)
    (otherFree : mark ∉ other) (same : stretch ++ mark :: left = other ++ mark :: right) :
    stretch = other ∧ left = right := by
  have front := congrArg (List.takeWhile (· != mark)) same
  rw [takeWhile_ne_mark stretchFree, takeWhile_ne_mark otherFree] at front
  subst front
  simpa using same

theorem dropWhile_ne_eq_nil (absent : mark ∉ stretch) : stretch.dropWhile (· != mark) = [] :=
  List.dropWhile_eq_nil_iff.mpr (all_ne_of_not_mem absent)

theorem eq_append_cons_of_dropWhile {text rest : List Char} {c : Char}
    (cut : text.dropWhile (· != mark) = c :: rest) :
    text = text.takeWhile (· != mark) ++ mark :: rest := by
  have first : c ∈ (text.dropWhile (· != mark)).head? := by
    rw [cut]
    rfl
  obtain rfl : c = mark := by simpa using outside_of_mem_head?_dropWhile first
  rw [← cut, List.takeWhile_append_dropWhile]

end Mark

/-- The code points of white space, one by one. -/
def blankPoints : List Nat :=
  List.range' 0x9 5 ++ [0x20, 0x85, 0xA0, 0x1680] ++ List.range' 0x2000 11 ++
    [0x2028, 0x2029, 0x202F, 0x205F, 0x3000]

theorem mem_blankPoints {c : Char} (blank : isBlank c = true) : c.toNat ∈ blankPoints := by
  simp only [isBlank, Bool.or_eq_true, Bool.and_eq_true, decide_eq_true_eq, beq_iff_eq] at blank
  simp only [blankPoints, List.mem_append, List.mem_range'_1, List.mem_cons, List.not_mem_nil,
    or_false]
  omega

def AllBlank (text : List Char) : Prop := ∀ c ∈ text, isBlank c = true

-- Named, so that no instance is found that goes through all characters there are.
instance (text : List Char) : Decidable (AllBlank text) :=
  List.decidableBAll (fun c => isBlank c = true) text

theorem AllBlank.nil : AllBlank [] := nofun

theorem AllBlank.not_mem {text : List Char} (blank : AllBlank text) (mark : Char)
    (ink : isBlank mark = false) : mark ∉ text := by
  intro member
  rw [blank mark member] at ink
  cases ink

theorem AllBlank.reverse {text : List Char} (blank : AllBlank text) : AllBlank text.reverse :=
  fun c member => blank c (List.mem_reverse.mp member)

theorem trim_append_left {lead : List Char} (blank : AllBlank lead) (text : List Char) :
    trim (lead ++ text) = trim text := by
  rw [trim, trim, trimStart, trimStart, List.dropWhile_append_of_pos blank]

theorem trimEnd_append {tail : List Char} (blank : AllBlank tail) (text : List Char) :
    trimEnd (text ++ tail) = trimEnd text := by
  rw [trimEnd, trimEnd, dropEndWhile, dropEndWhile, List.reverse_append,
    List.dropWhile_append_of_pos blank.reverse]

theorem trim_append_right {tail : List Char} (blank : AllBlank tail) (text : List Char) :
    trim (text ++ tail) = trim text := by
  simp only [trim, trimStart, List.dropWhile_append]
  split
  · rename_i exhausted
    rw [List.isEmpty_iff.mp exhausted, List.dropWhile_eq_nil_iff.mpr blank]
  · exact trimEnd_append blank _

/-- What trimming takes away is white space. -/
theorem exists_trim_append (text : List Char) :
    ∃ lead tail, text = lead ++ trim text ++ tail ∧ AllBlank lead ∧ AllBlank tail := by
  refine ⟨text.takeWhile isBlank, ((trimStart text).reverse.takeWhile isBlank).reverse, ?_, ?_, ?_⟩
  · rw [trim, trimEnd, List.append_assoc, dropEndWhile_append_takeWhile, trimStart,
      List.takeWhile_append_dropWhile]
  · exact fun c member => List.mem_takeWhile_imp member
  · exact AllBlank.reverse fun c member => List.mem_takeWhile_imp member

@[simp] theorem trim_trim (text : List Char) : trim (trim text) = trim text := by
  obtain ⟨lead, tail, whole, leadBlank, tailBlank⟩ := exists_trim_append text
  have outer : trim (lead ++ trim text ++ tail) = trim (trim text) := by
    rw [trim_append_right tailBlank, trim_append_left leadBlank]
  rw [← outer, ← whole]

theorem mem_of_mem_trim {c : Char} {text : List Char} (member : c ∈ trim text) : c ∈ text :=
  (trim_isInfix text).subset member

/-- Trimming takes no mark away that is not white space. -/
theorem mem_trim_of_mem {c : Char} {text : List Char} (ink : isBlank c = false)
    (member : c ∈ text) : c ∈ trim text := by
  obtain ⟨lead, tail, whole, leadBlank, tailBlank⟩ := exists_trim_append text
  rw [whole] at member
  simpa [leadBlank.not_mem c ink, tailBlank.not_mem c ink] using member

theorem isBlank_of_mem_head?_trim {c : Char} {text : List Char} (first : c ∈ (trim text).head?) :
    isBlank c = false := by
  have whole := dropEndWhile_append_takeWhile isBlank (trimStart text)
  have start : c ∈ (trimStart text).head? := by
    rw [← whole, List.head?_append, ← trimEnd, ← trim, Option.mem_def.mp first]
    rfl
  exact outside_of_mem_head?_dropWhile start

theorem isBlank_of_mem_getLast?_trimEnd {c : Char} {text : List Char}
    (last : c ∈ (trimEnd text).getLast?) : isBlank c = false := by
  rw [trimEnd, dropEndWhile, List.getLast?_reverse] at last
  exact outside_of_mem_head?_dropWhile last

/-- Trimming takes nothing from a piece that has no white space at its ends. -/
theorem infix_trim {piece text : List Char} (first : ∀ c ∈ piece.head?, isBlank c = false)
    (last : ∀ c ∈ piece.getLast?, isBlank c = false) (held : piece <:+: text) :
    piece <:+: trim text := by
  have started : piece <:+: trimStart text := infix_dropWhile first held
  rw [trim, trimEnd, dropEndWhile, ← List.reverse_infix, List.reverse_reverse]
  exact infix_dropWhile (by rwa [List.head?_reverse]) (List.reverse_infix.mpr started)

/-- A text with no white space at its ends is trimmed already. -/
theorem trim_eq_self {text : List Char} (first : ∀ c ∈ text.head?, isBlank c = false)
    (last : ∀ c ∈ text.getLast?, isBlank c = false) : trim text = text := by
  have turned : text.reverse.dropWhile isBlank = text.reverse :=
    dropWhile_eq_self (by rwa [List.head?_reverse])
  rw [trim, trimStart, dropWhile_eq_self first, trimEnd, dropEndWhile, turned,
    List.reverse_reverse]

/-- A text with no white space in front and none at its end. -/
def Unpadded (text : List Char) : Prop :=
  (∀ c ∈ text.head?, isBlank c = false) ∧ ∀ c ∈ text.getLast?, isBlank c = false

theorem trim_eq_self_iff {text : List Char} : trim text = text ↔ Unpadded text := by
  constructor
  · intro same
    have first : ∀ c ∈ (trim text).head?, isBlank c = false := fun c => isBlank_of_mem_head?_trim
    have last : ∀ c ∈ (trim text).getLast?, isBlank c = false := fun c =>
      isBlank_of_mem_getLast?_trimEnd
    rw [same] at first last
    exact ⟨first, last⟩
  · intro unpadded
    exact trim_eq_self unpadded.1 unpadded.2

theorem trim_eq_self_of_unblank {text : List Char} (unblank : ∀ c ∈ text, isBlank c = false) :
    trim text = text :=
  trim_eq_self (fun c first => unblank c (List.mem_of_mem_head? first))
    fun c last => unblank c (List.mem_of_mem_getLast? last)

theorem trim_eq_nil_iff {text : List Char} : trim text = [] ↔ AllBlank text := by
  constructor
  · intro gone
    obtain ⟨lead, tail, whole, leadBlank, tailBlank⟩ := exists_trim_append text
    rw [gone, List.append_nil] at whole
    intro c member
    rw [whole] at member
    exact (List.mem_append.mp member).elim (leadBlank c) (tailBlank c)
  · intro blank
    rw [trim, trimStart, List.dropWhile_eq_nil_iff.mpr blank]
    rfl

end StyleLookup.Text
