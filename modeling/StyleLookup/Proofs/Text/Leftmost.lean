import Mathlib.Data.List.Basic

/-!
Items that are read off a text one after another, from left to right. Each stands at the first place
behind the one before it at which anything can be read, so a text is cut up in one way only.
-/

set_option autoImplicit false

namespace StyleLookup.Text

variable {α : Type}

/-- Which items can be read at a place of a text. The place is given by the text in front of it and
the text from there on, and with an item comes the text that is left behind it. -/
abbrev Reading (α : Type) := List Char → List Char → α → List Char → Prop

namespace Reading

variable (reads : Reading α)

def Starts (before here : List Char) : Prop := ∃ item after, reads before here item after

/-- Nothing can be read at the first places of a text, as many as are named. -/
def SilentFor (places : Nat) (text : List Char) : Prop :=
  ∀ before here, text = before ++ here → before.length < places → ¬ reads.Starts before here

/-- At most one item can be read at a place, and it leaves one rest. -/
def Functional : Prop :=
  ∀ before here item after other rest, reads before here item after →
    reads before here other rest → item = other ∧ after = rest

/-- The items that are read off a text, each with the gap in front of it, and what is left at the
end. No item can be read at a place in a gap, nor at any place of the ending. -/
inductive Leftmost : List Char → List (List Char × α) → List Char → Prop
  | ending {text} : (∀ before here, text = before ++ here → ¬ reads.Starts before here) →
      Leftmost text [] text
  | item {text gap here item after found ending} : text = gap ++ here →
      reads gap here item after → reads.SilentFor gap.length text → Leftmost after found ending →
      Leftmost text ((gap, item) :: found) ending

variable {reads} {text : List Char}

theorem SilentFor.zero : reads.SilentFor 0 text := fun _ _ _ early =>
  absurd early (Nat.not_lt_zero _)

theorem SilentFor.length_le {places : Nat} {before here : List Char}
    (silent : reads.SilentFor places (before ++ here)) (starts : reads.Starts before here) :
    places ≤ before.length := by
  by_contra early
  exact silent before here rfl (Nat.lt_of_not_le early) starts

namespace Leftmost

variable {found others : List (List Char × α)} {ending rest : List Char}

/-- A text is read in one way only. -/
theorem unique (functional : reads.Functional) (left : reads.Leftmost text found ending)
    (right : reads.Leftmost text others rest) : found = others ∧ ending = rest := by
  induction left generalizing others rest with
  | ending nowhere =>
      cases right with
      | ending => exact ⟨rfl, rfl⟩
      | item cut read => exact absurd ⟨_, _, read⟩ (nowhere _ _ cut)
  | item cut read silent _ ih =>
      cases right with
      | ending nowhere => exact absurd ⟨_, _, read⟩ (nowhere _ _ cut)
      | item otherCut otherRead otherSilent later =>
          -- Each of the two items stands at the first readable place, so it is the same place.
          have same := cut.symm.trans otherCut
          have le := (cut ▸ otherSilent).length_le ⟨_, _, read⟩
          have ge := (otherCut ▸ silent).length_le ⟨_, _, otherRead⟩
          obtain ⟨rfl, rfl⟩ := List.append_inj same (Nat.le_antisymm ge le)
          obtain ⟨rfl, rfl⟩ := functional _ _ _ _ _ _ read otherRead
          obtain ⟨rfl, rfl⟩ := ih later
          exact ⟨rfl, rfl⟩

theorem not_starts_ending (cut : reads.Leftmost text found ending) :
    ∀ before here, ending = before ++ here → ¬ reads.Starts before here := by
  induction cut with
  | ending nowhere => exact nowhere
  | item _ _ _ _ ih => exact ih

theorem of_mem_found {holds : α → Prop}
    (each : ∀ {before here item after}, reads before here item after → holds item)
    (cut : reads.Leftmost text found ending) : ∀ entry ∈ found, holds entry.2 := by
  induction cut with
  | ending => simp
  | item _ read _ _ ih =>
      intro entry member
      cases member with
      | head => exact each read
      | tail _ later => exact ih entry later

/-- Where each item spells the text that it is read from, the gaps, the items and the ending make up
the text. -/
theorem eq_flatMap_append {spell : α → List Char}
    (spells : ∀ {before here item after}, reads before here item after →
      here = spell item ++ after)
    (cut : reads.Leftmost text found ending) :
    text = found.flatMap (fun entry => entry.1 ++ spell entry.2) ++ ending := by
  induction cut with
  | ending => rfl
  | item cut read _ _ ih =>
      rw [cut, spells read, List.flatMap_cons, List.append_assoc, List.append_assoc, ← ih]

/-- Text in front in which nothing can be read only makes the first gap longer. -/
theorem append_left {lead : List Char} (cut : reads.Leftmost text found ending)
    (silent : reads.SilentFor lead.length (lead ++ text))
    (shift : ∀ before here item after, text = before ++ here →
      (reads (lead ++ before) here item after ↔ reads before here item after)) :
    ∃ others rest, reads.Leftmost (lead ++ text) others rest ∧
      others.map Prod.snd = found.map Prod.snd := by
  -- A place of the whole text lies in the lead, or it is a place of the text behind it.
  have place : ∀ {before here}, lead ++ text = before ++ here → reads.Starts before here →
      ∃ inner, before = lead ++ inner ∧ text = inner ++ here ∧ reads.Starts inner here := by
    intro before here whole starts
    have behind := (whole ▸ silent).length_le starts
    obtain ⟨inner, rfl⟩ := List.prefix_of_prefix_length_le ⟨text, rfl⟩ ⟨here, whole.symm⟩ behind
    have same : text = inner ++ here := by simpa using whole
    obtain ⟨item, after, read⟩ := starts
    exact ⟨inner, rfl, same, item, after, (shift inner here item after same).mp read⟩
  cases cut with
  | ending nowhere =>
      refine ⟨[], lead ++ text, .ending fun before here whole starts => ?_, rfl⟩
      obtain ⟨inner, -, same, inside⟩ := place whole starts
      exact nowhere inner here same inside
  | @item _ gap here item after found ending same read within later =>
      have moved := (shift gap here item after same).mpr read
      refine ⟨(lead ++ gap, item) :: found, ending, .item ?_ moved ?_ later, rfl⟩
      · rw [same, List.append_assoc]
      · intro before other whole early starts
        obtain ⟨inner, rfl, cut, inside⟩ := place whole starts
        have short : inner.length < gap.length := by
          simpa only [List.length_append, Nat.add_lt_add_iff_left] using early
        exact within inner other cut short inside

end Leftmost

end Reading

end StyleLookup.Text
