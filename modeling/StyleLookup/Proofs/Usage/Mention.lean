import Mathlib.Data.List.Basic
import Mathlib.Data.List.Pairwise
import StyleLookup.Proofs.Text.Stretch
import StyleLookup.Usage.Attribute

/-!
Mentions of a name in attributes, and what the search for them finds: of the places in one attribute
the first one, and of attributes that overlap the one that starts first.
-/

set_option autoImplicit false

namespace StyleLookup.Attribute

/-! ## Texts up to a quote -/

def Quoteless (text : List Char) : Prop := ∀ c ∈ text, isQuote c = false

-- Named, so that no instance is found that goes through all characters there are.
instance (text : List Char) : Decidable (Quoteless text) :=
  List.decidableBAll (fun c => isQuote c = false) text

section Quotes

variable {left right inner rest : List Char} {first second quote : Char}

theorem quoteless_nil : Quoteless [] := List.forall_mem_nil _

theorem quoteless_append_iff : Quoteless (left ++ right) ↔ Quoteless left ∧ Quoteless right :=
  List.forall_mem_append

theorem quoteless_cons_iff : Quoteless (quote :: rest) ↔ isQuote quote = false ∧ Quoteless rest :=
  List.forall_mem_cons

theorem takeWhile_not_isQuote (free : Quoteless inner) (quoted : isQuote quote = true) :
    (inner ++ quote :: rest).takeWhile (! isQuote ·) = inner := by
  apply Text.takeWhile_stretch
  · exact fun c member => by simp [free c member]
  · simp [quoted]

/-- Two readings of a text up to its first quote are the same. -/
theorem append_cons_inj_of_first (leftFree : Quoteless left) (rightFree : Quoteless right)
    (firstQuoted : isQuote first = true) (secondQuoted : isQuote second = true)
    (same : left ++ first :: inner = right ++ second :: rest) :
    left = right ∧ first = second ∧ inner = rest := by
  have stretch := congrArg (List.takeWhile (! isQuote ·)) same
  rw [takeWhile_not_isQuote leftFree firstQuoted,
    takeWhile_not_isQuote rightFree secondQuoted] at stretch
  subst stretch
  simpa using same

/-- Two readings of a text back to its last quote are the same. -/
theorem append_cons_inj_of_last (innerFree : Quoteless inner) (restFree : Quoteless rest)
    (firstQuoted : isQuote first = true) (secondQuoted : isQuote second = true)
    (same : left ++ first :: inner = right ++ second :: rest) :
    left = right ∧ first = second ∧ inner = rest := by
  have backwards : inner.reverse ++ first :: left.reverse =
      rest.reverse ++ second :: right.reverse := by
    simpa using congrArg List.reverse same
  obtain ⟨stretch, same, before⟩ := append_cons_inj_of_first
    (fun c member => innerFree c (List.mem_reverse.mp member))
    (fun c member => restFree c (List.mem_reverse.mp member)) firstQuoted secondQuoted backwards
  exact ⟨List.reverse_injective before, same, List.reverse_injective stretch⟩

theorem throughQuote?_eq_some_iff {text : List Char} {length : Nat} :
    throughQuote? text = some length ↔
      ∃ inner quote rest, text = inner ++ quote :: rest ∧ Quoteless inner ∧
        isQuote quote = true ∧ length = inner.length + 1 := by
  rw [throughQuote?, Option.ite_none_right_eq_some, Option.some_inj]
  constructor
  · intro ⟨any, counted⟩
    obtain ⟨c, member, quoted⟩ := List.any_eq_true.mp any
    cases cut : text.dropWhile (! isQuote ·) with
    | nil =>
        have free := List.dropWhile_eq_nil_iff.mp cut c member
        simp [quoted] at free
    | cons quote rest =>
        have first : quote ∈ (text.dropWhile (! isQuote ·)).head? := by rw [cut]; rfl
        have closes : (! isQuote quote) = false := Text.outside_of_mem_head?_dropWhile first
        refine ⟨text.takeWhile (! isQuote ·), quote, rest, ?_, ?_, by simpa using closes,
          counted.symm⟩
        · rw [← cut, List.takeWhile_append_dropWhile]
        · intro c member
          simpa using List.mem_takeWhile_imp member
  · intro cut
    obtain ⟨inner, quote, rest, rfl, free, quoted, rfl⟩ := cut
    rw [takeWhile_not_isQuote free quoted]
    exact ⟨List.any_eq_true.mpr ⟨quote, by simp, quoted⟩, rfl⟩

end Quotes

/-! ## Names in values -/

/-- A name as a whole word between two characters. -/
def IsWord (name : List Char) (before after : Option Char) : Prop :=
  Text.isWordBoundary before name.head? = true ∧ Text.isWordBoundary name.getLast? after = true

/-- A name as a whole word in a value that starts behind a given character and goes on up to the
first quote after the name. -/
structure Standing (name : List Char) (before : Option Char) (value : List Char) where
  between : List Char
  inner : List Char
  closing : Char
  rest : List Char
  whole : value = between ++ (name ++ (inner ++ closing :: rest))
  between_free : Quoteless between
  inner_free : Quoteless inner
  closed : isQuote closing = true
  word : IsWord name (before.toList ++ between).getLast? (inner ++ [closing]).head?

namespace Standing

variable {name value : List Char} {before : Option Char} {c : Char}

def hit (standing : Standing name before value) : Hit :=
  ⟨standing.between.length,
    standing.between.length + (name.length + (standing.inner.length + 1))⟩

def later (standing : Standing name (some c) value) (plain : isQuote c = false) :
    Standing name before (c :: value) where
  between := c :: standing.between
  inner := standing.inner
  closing := standing.closing
  rest := standing.rest
  whole := congrArg (c :: ·) standing.whole
  between_free := quoteless_cons_iff.mpr ⟨plain, standing.between_free⟩
  inner_free := standing.inner_free
  closed := standing.closed
  word := by
    rw [List.getLast?_append_cons]
    exact standing.word

theorem hit_later (standing : Standing name (some c) value) (plain : isQuote c = false) :
    (standing.later plain : Standing name before (c :: value)).hit = standing.hit.after 1 := by
  simp only [hit, later, Hit.after, List.length_cons, Hit.mk.injEq, true_and]
  omega

end Standing

section Values

variable {name value : List Char} {before : Option Char} {hit : Hit}

theorem wordHere?_eq_some_iff (named : name ≠ []) :
    wordHere? name before value = some hit ↔
      ∃ standing : Standing name before value, standing.between = [] ∧ standing.hit = hit := by
  have firstOfName (tail : List Char) : (name ++ tail).head? = name.head? :=
    List.head?_append_of_ne_nil _ named
  have firstBehind (inner rest : List Char) (closing : Char) :
      (inner ++ closing :: rest).head? = (inner ++ [closing]).head? := by
    cases inner <;> rfl
  have alone : (before.toList ++ []).getLast? = before := by cases before <;> rfl
  rw [wordHere?, Option.ite_none_right_eq_some, Bool.and_eq_true, Bool.and_eq_true,
    List.isPrefixOf_iff_prefix, Option.map_eq_some_iff]
  constructor
  · intro found
    obtain ⟨⟨⟨⟨tail, rfl⟩, starts⟩, ends⟩, length, through, rfl⟩ := found
    rw [List.drop_left] at ends through
    rw [firstOfName] at starts
    obtain ⟨inner, closing, rest, rfl, free, closed, rfl⟩ := throughQuote?_eq_some_iff.mp through
    rw [firstBehind] at ends
    refine ⟨⟨[], inner, closing, rest, rfl, quoteless_nil, free, closed,
      alone.symm ▸ ⟨starts, ends⟩⟩, rfl, ?_⟩
    simp [Standing.hit, Nat.add_comm]
  · intro standing
    obtain ⟨⟨between, inner, closing, rest, rfl, -, free, closed, word⟩, rfl, rfl⟩ := standing
    rw [alone] at word
    have behind : (name ++ (inner ++ closing :: rest)).drop name.length =
        inner ++ closing :: rest := List.drop_left
    refine ⟨⟨⟨List.prefix_append _ _, ?starts⟩, ?ends⟩, inner.length + 1, ?through, ?counted⟩
    case starts => exact (firstOfName _).symm ▸ word.1
    case ends => exact behind.symm ▸ firstBehind inner rest closing ▸ word.2
    case through =>
      exact behind.symm ▸
        throughQuote?_eq_some_iff.mpr ⟨inner, closing, rest, rfl, free, closed, rfl⟩
    case counted => simp [Standing.hit, Nat.add_comm]

theorem exists_standing_of_wordIn?_eq_some (named : name ≠ [])
    (found : wordIn? name before value = some hit) :
    ∃ standing : Standing name before value, standing.hit = hit := by
  -- On the value: the search starts over behind each character, with this one in front.
  induction value generalizing before hit with
  | nil =>
      obtain ⟨standing, -, same⟩ := (wordHere?_eq_some_iff named).mp found
      exact ⟨standing, same⟩
  | cons c value ih =>
      rw [wordIn?] at found
      cases first : wordHere? name before (c :: value) with
      | some earlier =>
          rw [first] at found
          cases found
          obtain ⟨standing, -, same⟩ := (wordHere?_eq_some_iff named).mp first
          exact ⟨standing, same⟩
      | none =>
          simp only [first, Option.ite_none_left_eq_some, Option.map_eq_some_iff] at found
          obtain ⟨quoted, later, found, rfl⟩ := found
          obtain ⟨standing, rfl⟩ := ih found
          exact ⟨standing.later (by simpa using quoted), standing.hit_later _⟩

/-- A whole word in a value is found, or an earlier one is. -/
theorem Standing.exists_wordIn?_eq_some (named : name ≠ [])
    (standing : Standing name before value) :
    ∃ hit, wordIn? name before value = some hit ∧ hit.start ≤ standing.between.length := by
  obtain ⟨between, inner, closing, rest, whole, free, innerFree, closed, word⟩ := standing
  induction between generalizing before value with
  | nil =>
      let standing : Standing name before value :=
        ⟨[], inner, closing, rest, whole, free, innerFree, closed, word⟩
      have found := (wordHere?_eq_some_iff named).mpr ⟨standing, rfl, rfl⟩
      refine ⟨standing.hit, ?_, Nat.le_refl _⟩
      cases value with
      | nil => exact found
      | cons c value => rw [wordIn?, found]
  | cons c between ih =>
      cases value with
      | nil => cases whole
      | cons d value =>
          obtain ⟨rfl, tail⟩ := List.cons.inj whole
          obtain ⟨plain, free⟩ := quoteless_cons_iff.mp free
          rw [List.getLast?_append_cons] at word
          obtain ⟨hit, found, atMost⟩ := @ih value (some d) tail free word
          cases first : wordHere? name before (d :: value) with
          | some earlier =>
              obtain ⟨standing, start, rfl⟩ := (wordHere?_eq_some_iff named).mp first
              exact ⟨_, by rw [wordIn?, first], by simp [Standing.hit, start]⟩
          | none =>
              refine ⟨hit.after 1, ?_, Nat.succ_le_succ atMost⟩
              rw [wordIn?, first]
              simp [plain, found]

theorem wholeValue?_eq_some_iff :
    wholeValue? name value = some hit ↔
      ∃ closing rest, value = name ++ closing :: rest ∧ isQuote closing = true ∧
        hit = ⟨0, name.length + 1⟩ := by
  rw [wholeValue?, Option.ite_none_right_eq_some, List.isPrefixOf_iff_prefix]
  constructor
  · intro search
    obtain ⟨⟨tail, rfl⟩, found⟩ := search
    rw [List.drop_left] at found
    cases tail with
    | nil => cases found
    | cons closing rest =>
        obtain ⟨closed, same⟩ := Option.ite_none_right_eq_some.mp found
        cases same
        exact ⟨closing, rest, rfl, closed, rfl⟩
  · intro whole
    obtain ⟨closing, rest, rfl, closed, rfl⟩ := whole
    rw [List.drop_left]
    exact ⟨List.prefix_append _ _, if_pos closed⟩

end Values

/-! ## Attributes that mention a name -/

/-- Where a name may stand in a value. An id is the whole value, a class is a whole word of it. -/
def Fits (kind : Attribute) (name : List Char) (quote : Char) (between inner : List Char)
    (closing : Char) : Prop :=
  match kind with
  | .id => between = [] ∧ inner = []
  | _ => IsWord name (quote :: between).getLast? (inner ++ [closing]).head?

/-- A text and in it an attribute that mentions a name. -/
structure Mention (kind : Attribute) (name : List Char) where
  lead : List Char
  quote : Char
  between : List Char
  inner : List Char
  closing : Char
  rest : List Char
  boundary : Text.isWordBoundary lead.getLast? kind.opening.head? = true
  quoted : isQuote quote = true
  between_free : Quoteless between
  inner_free : Quoteless inner
  closed : isQuote closing = true
  fits : Fits kind name quote between inner closing

namespace Mention

variable {kind : Attribute} {name : List Char}

/-- The text from the name on. -/
def onward (mention : Mention kind name) : List Char :=
  name ++ (mention.inner ++ mention.closing :: mention.rest)

def value (mention : Mention kind name) : List Char := mention.between ++ mention.onward

/-- The text from the attribute on. -/
def markup (mention : Mention kind name) : List Char :=
  kind.opening ++ mention.quote :: mention.value

def text (mention : Mention kind name) : List Char := mention.lead ++ mention.markup

def hit (mention : Mention kind name) : Hit :=
  ⟨kind.opening.length + 1 + mention.between.length,
    kind.opening.length + 1 +
      (mention.between.length + (name.length + (mention.inner.length + 1)))⟩

def place (mention : Mention kind name) : Nat := mention.lead.length + mention.hit.start

/-- Where the text goes on behind the closing quote. -/
def past (mention : Mention kind name) : Nat := mention.lead.length + mention.hit.length

/-- No place in front of this one in the same attribute fits. -/
def IsFirst (mention : Mention kind name) : Prop :=
  ∀ other : Mention kind name, other.lead = mention.lead → other.markup = mention.markup →
    mention.between.length ≤ other.between.length

theorem drop_place_text (mention : Mention kind name) :
    mention.text.drop mention.place = mention.onward := by
  have ahead : mention.text =
      (mention.lead ++ (kind.opening ++ mention.quote :: mention.between)) ++ mention.onward := by
    simp [text, markup, value]
  have counted : mention.place =
      (mention.lead ++ (kind.opening ++ mention.quote :: mention.between)).length := by
    simp only [place, hit, List.length_append, List.length_cons]
    omega
  rw [ahead, counted, List.drop_left]

theorem length_text (mention : Mention kind name) :
    mention.text.length = mention.past + mention.rest.length := by
  simp only [text, markup, value, onward, past, hit, List.length_append, List.length_cons]
  omega

theorem place_lt_past (mention : Mention kind name) : mention.place < mention.past := by
  simp only [place, past, hit]
  omega

theorem length_lead_lt_place (mention : Mention kind name) :
    mention.lead.length < mention.place := by
  simp only [place, hit]
  omega

end Mention

section Hits

variable {kind : Attribute} {name lead text : List Char} {before : Option Char} {hit : Hit}

theorem head?_opening_append (kind : Attribute) (rest : List Char) :
    (kind.opening ++ rest).head? = kind.opening.head? := by
  cases kind <;> rfl

def valueHit? (kind : Attribute) (name : List Char) (quote : Char) (value : List Char) :
    Option Hit :=
  match kind with
  | .id => wholeValue? name value
  | _ => wordIn? name (some quote) value

theorem hitHere?_eq_some_iff :
    kind.hitHere? name before text = some hit ↔
      ∃ quote value inside, text = kind.opening ++ quote :: value ∧
        Text.isWordBoundary before kind.opening.head? = true ∧ isQuote quote = true ∧
          valueHit? kind name quote value = some inside ∧
            inside.after (kind.opening.length + 1) = hit := by
  rw [hitHere?, Option.ite_none_right_eq_some, Bool.and_eq_true, List.isPrefixOf_iff_prefix]
  constructor
  · intro search
    obtain ⟨⟨⟨tail, rfl⟩, boundary⟩, found⟩ := search
    rw [List.drop_left] at found
    rw [head?_opening_append] at boundary
    cases tail with
    | nil => cases found
    | cons quote value =>
        obtain ⟨quoted, found⟩ := Option.ite_none_right_eq_some.mp found
        obtain ⟨inside, found, same⟩ := Option.map_eq_some_iff.mp found
        exact ⟨quote, value, inside, rfl, boundary, quoted, found, same⟩
  · intro read
    obtain ⟨quote, value, inside, rfl, boundary, quoted, found, same⟩ := read
    rw [List.drop_left, head?_opening_append]
    exact ⟨⟨List.prefix_append _ _, boundary⟩, Option.ite_none_right_eq_some.mpr
      ⟨quoted, Option.map_eq_some_iff.mpr ⟨inside, found, same⟩⟩⟩

/-- Each mention is found, or an earlier one in the same attribute is. -/
theorem Mention.exists_hitHere?_eq_some (named : name ≠ []) (mention : Mention kind name) :
    ∃ hit, kind.hitHere? name mention.lead.getLast? mention.markup = some hit ∧
      hit.start ≤ mention.hit.start := by
  have inValue : ∃ inside, valueHit? kind name mention.quote mention.value = some inside ∧
      inside.start ≤ mention.between.length := by
    have fits := mention.fits
    cases kind with
    | id =>
        obtain ⟨front, back⟩ := fits
        have whole : mention.value = name ++ mention.closing :: mention.rest := by
          rw [value, onward, front, back, List.nil_append, List.nil_append]
        exact ⟨_, wholeValue?_eq_some_iff.mpr ⟨_, _, whole, mention.closed, rfl⟩, Nat.zero_le _⟩
    | classList | className =>
        let standing : Standing name (some mention.quote) mention.value :=
          ⟨mention.between, mention.inner, mention.closing, mention.rest, rfl,
            mention.between_free, mention.inner_free, mention.closed, fits⟩
        exact standing.exists_wordIn?_eq_some named
  obtain ⟨inside, found, atMost⟩ := inValue
  refine ⟨inside.after (kind.opening.length + 1), hitHere?_eq_some_iff.mpr
    ⟨mention.quote, mention.value, inside, rfl, mention.boundary, mention.quoted, found, rfl⟩, ?_⟩
  simp only [Hit.after, Mention.hit]
  omega

theorem exists_mention_of_hitHere?_eq_some (named : name ≠ [])
    (found : kind.hitHere? name lead.getLast? text = some hit) :
    ∃ mention : Mention kind name, mention.lead = lead ∧ mention.markup = text ∧
      mention.hit = hit ∧ mention.IsFirst := by
  have whole : ∃ mention : Mention kind name, mention.lead = lead ∧ mention.markup = text ∧
      mention.hit = hit := by
    obtain ⟨quote, value, inside, rfl, boundary, quoted, inValue, rfl⟩ :=
      hitHere?_eq_some_iff.mp found
    cases kind with
    | id =>
        obtain ⟨closing, rest, rfl, closed, rfl⟩ := wholeValue?_eq_some_iff.mp inValue
        refine ⟨⟨lead, quote, [], [], closing, rest, boundary, quoted, quoteless_nil,
          quoteless_nil, closed, rfl, rfl⟩, rfl, rfl, ?_⟩
        simp [Mention.hit, Hit.after]
        omega
    | classList | className =>
        obtain ⟨standing, rfl⟩ := exists_standing_of_wordIn?_eq_some named inValue
        refine ⟨⟨lead, quote, standing.between, standing.inner, standing.closing, standing.rest,
          boundary, quoted, standing.between_free, standing.inner_free, standing.closed,
          standing.word⟩, rfl, ?_, ?_⟩
        · rw [Mention.markup, Mention.value, Mention.onward, ← standing.whole]
        · simp only [Mention.hit, Hit.after, Standing.hit, Hit.mk.injEq]
          omega
  obtain ⟨mention, rfl, rfl, rfl⟩ := whole
  refine ⟨mention, rfl, rfl, rfl, ?_⟩
  intro other sameLead sameMarkup
  obtain ⟨earlier, again, atMost⟩ := other.exists_hitHere?_eq_some named
  rw [sameLead, sameMarkup, found] at again
  cases again
  simpa [Mention.hit] using atMost

end Hits

/-! ## The search through a text -/

/-- What a search through a text from a given place on has to find: mentions that do not overlap,
each the first one in its attribute, so that each attribute which mentions the name is found or lies
in a found one in part. -/
structure Scanned (kind : Attribute) (name text : List Char) (start : Nat)
    (mentions : List (Mention kind name)) : Prop where
  text_eq : ∀ mention ∈ mentions, mention.text = text
  isFirst : ∀ mention ∈ mentions, mention.IsFirst
  start_le : ∀ mention ∈ mentions, start ≤ mention.lead.length
  disjoint : mentions.Pairwise fun left right => left.past ≤ right.lead.length
  complete : ∀ other : Mention kind name, other.text = text → start ≤ other.lead.length →
    ∃ mention ∈ mentions, mention.lead.length ≤ other.lead.length ∧
      other.lead.length < mention.past

section Search

variable {kind : Attribute} {name text : List Char} {start : Nat}
  {mentions : List (Mention kind name)}

theorem scanned_nil (exhausted : text.length ≤ start) : Scanned kind name text start [] where
  text_eq := List.forall_mem_nil _
  isFirst := List.forall_mem_nil _
  start_le := List.forall_mem_nil _
  disjoint := .nil
  complete := by
    intro other same inside
    have length := other.length_text
    have positive := other.length_lead_lt_place
    have order := other.place_lt_past
    rw [same] at length
    omega

theorem Scanned.past_le_of_lt (scanned : Scanned kind name text start mentions)
    {left right : Mention kind name} (leftMember : left ∈ mentions) (rightMember : right ∈ mentions)
    (earlier : left.lead.length < right.lead.length) : left.past ≤ right.lead.length := by
  let Apart (left right : Mention kind name) : Prop :=
    left.past ≤ right.lead.length ∨ right.past ≤ left.lead.length
  have symmetric : Std.Symm Apart := ⟨fun _ _ => Or.symm⟩
  have apart : mentions.Pairwise Apart := scanned.disjoint.imp Or.inl
  have distinct : left ≠ right := by
    rintro rfl
    exact Nat.lt_irrefl _ earlier
  rcases apart.forall leftMember rightMember distinct with fore | aft
  · exact fore
  · have placed := right.length_lead_lt_place
    have order := right.place_lt_past
    omega

/-- A search goes on behind what it has found. -/
theorem Scanned.cons {mention : Mention kind name}
    (scanned : Scanned kind name text mention.past mentions) (whole : mention.text = text)
    (first : mention.IsFirst) :
    Scanned kind name text mention.lead.length (mention :: mentions) where
  text_eq := List.forall_mem_cons.mpr ⟨whole, scanned.text_eq⟩
  isFirst := List.forall_mem_cons.mpr ⟨first, scanned.isFirst⟩
  start_le := by
    have order := mention.length_lead_lt_place.trans mention.place_lt_past
    exact List.forall_mem_cons.mpr
      ⟨Nat.le_refl _, fun other member => order.le.trans (scanned.start_le other member)⟩
  disjoint := List.pairwise_cons.mpr ⟨scanned.start_le, scanned.disjoint⟩
  complete := by
    intro other same inside
    by_cases overlapping : other.lead.length < mention.past
    · exact ⟨mention, List.mem_cons_self, inside, overlapping⟩
    · obtain ⟨later, member, found⟩ := scanned.complete other same (Nat.le_of_not_lt overlapping)
      exact ⟨later, List.mem_cons_of_mem _ member, found⟩

/-- A search goes on with the next character if no attribute that starts here mentions the name. -/
theorem Scanned.of_succ (scanned : Scanned kind name text (start + 1) mentions)
    (nothing : ∀ other : Mention kind name, other.text = text → other.lead.length ≠ start) :
    Scanned kind name text start mentions where
  text_eq := scanned.text_eq
  isFirst := scanned.isFirst
  start_le := fun mention member => Nat.le_of_succ_le (scanned.start_le mention member)
  disjoint := scanned.disjoint
  complete := fun other same inside =>
    scanned.complete other same (Nat.lt_of_le_of_ne inside (nothing other same).symm)

theorem exists_scanned_placesFrom (named : name ≠ []) (lead rest : List Char) (skipping : Nat) :
    ∃ mentions, kind.placesFrom name lead.getLast? lead.length skipping rest =
        mentions.map Mention.place ∧
      Scanned kind name (lead ++ rest) (lead.length + skipping) mentions := by
  -- On what is still to be read; the part that was read grows, and its last character is the one
  -- in front.
  induction rest generalizing lead skipping with
  | nil => exact ⟨[], rfl, scanned_nil (by simp)⟩
  | cons c rest ih =>
      have next (skipping : Nat) : ∃ mentions,
          kind.placesFrom name (some c) (lead.length + 1) skipping rest =
              mentions.map Mention.place ∧
            Scanned kind name (lead ++ c :: rest) (lead.length + 1 + skipping) mentions := by
        simpa using ih (lead ++ [c]) skipping
      cases skipping with
      | succ remaining =>
          obtain ⟨mentions, places, scanned⟩ := next remaining
          rw [Nat.add_assoc, Nat.add_comm 1] at scanned
          exact ⟨mentions, places, scanned⟩
      | zero =>
          rw [placesFrom]
          cases found : kind.hitHere? name lead.getLast? (c :: rest) with
          | some hit =>
              obtain ⟨mention, rfl, whole, rfl, first⟩ :=
                exists_mention_of_hitHere?_eq_some named found
              obtain ⟨mentions, places, scanned⟩ := next (mention.hit.length - 1)
              have behind : mention.lead.length + 1 + (mention.hit.length - 1) = mention.past := by
                simp only [Mention.past, Mention.hit]
                omega
              rw [behind] at scanned
              refine ⟨mention :: mentions, ?_, scanned.cons (congrArg _ whole) first⟩
              rw [List.map_cons, ← places]
              rfl
          | none =>
              obtain ⟨mentions, places, scanned⟩ := next 0
              refine ⟨mentions, places, scanned.of_succ ?_⟩
              intro other same here
              obtain ⟨sameLead, sameMarkup⟩ := List.append_inj same here
              obtain ⟨hit, again, -⟩ := other.exists_hitHere?_eq_some named
              rw [sameLead, sameMarkup, found] at again
              cases again

theorem exists_scanned_places (named : name ≠ []) (kind : Attribute) (text : List Char) :
    ∃ mentions, kind.places name text = mentions.map Mention.place ∧
      Scanned kind name text 0 mentions :=
  exists_scanned_placesFrom named [] text 0

end Search

end StyleLookup.Attribute
