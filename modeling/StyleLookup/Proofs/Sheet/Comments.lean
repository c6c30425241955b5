import StyleLookup.Proofs.Sheet.Scan

/-!
Comments and the text between them. Taking the comments out leaves a text as it is exactly if none
of its openings is closed, and it goes on past the end of a text that leaves no comment open. It
undoes what putting comments into a text does.
-/

set_option autoImplicit false

namespace StyleLookup.Sheet

variable {text after : List Char}

/-- A comment ends at the first closing behind its opening. -/
theorem afterClose?_eq_some_iff :
    afterClose? text = some after ↔
      ∃ inner, ¬ ['*', '/'] <:+: inner ∧ text = inner ++ '*' :: '/' :: after := by
  constructor
  · intro closed
    fun_induction afterClose? text with
    | case1 => cases closed
    | case2 rest =>
        cases closed
        exact ⟨[], by decide, rfl⟩
    | case3 c rest apart ih =>
        obtain ⟨inner, unclosed, rfl⟩ := ih closed
        refine ⟨c :: inner, fun held => ?_, rfl⟩
        cases List.infix_cons_iff.mp held with
        | inr later => exact unclosed later
        | inl first =>
            obtain ⟨rfl, slash⟩ := List.cons_prefix_cons.mp first
            obtain ⟨more, rfl⟩ := slash
            exact apart _ rfl rfl
  · intro stretch
    obtain ⟨inner, unclosed, rfl⟩ := stretch
    induction inner with
    | nil => rfl
    | cons c inner ih =>
        have further : ¬ ['*', '/'] <:+: inner := fun held => unclosed (List.infix_cons held)
        rw [List.cons_append, afterClose?]
        · exact ih further
        · intro rest star slash
          cases inner with
          | nil => cases slash
          | cons d inner =>
              cases slash
              exact unclosed ⟨[], inner, by rw [star]; rfl⟩

theorem afterClose?_eq_none_iff : afterClose? text = none ↔ ¬ ['*', '/'] <:+: text := by
  fun_induction afterClose? text with
  | case1 => decide
  | case2 rest => simpa using (List.prefix_append ['*', '/'] rest).isInfix
  | case3 c rest apart ih =>
      have later : ¬ ['*', '/'] <+: c :: rest := by
        intro first
        obtain ⟨rfl, slash⟩ := List.cons_prefix_cons.mp first
        obtain ⟨more, rfl⟩ := slash
        exact apart more rfl rfl
      rw [ih, List.infix_cons_iff, or_iff_right later]

/-! ## Texts without comments -/

/-- No opening in a text is closed by what follows it. -/
def Commentless (text : List Char) : Prop :=
  ∀ inner, ¬ '/' :: '*' :: (inner ++ ['*', '/']) <:+: text

theorem commentless_cons {c : Char} {rest : List Char}
    (apart : ∀ more, c = '/' → rest = '*' :: more → False) (commentless : Commentless rest) :
    Commentless (c :: rest) := by
  intro inner held
  cases List.infix_cons_iff.mp held with
  | inr later => exact commentless inner later
  | inl first =>
      obtain ⟨rfl, star⟩ := List.cons_prefix_cons.mp first
      obtain ⟨more, rfl⟩ := star
      exact apart _ rfl rfl

/-- An opening with no closing anywhere behind it starts no comment, and nothing behind it does. -/
theorem commentless_of_unclosed {rest : List Char} (unclosed : ¬ ['*', '/'] <:+: rest) :
    Commentless ('/' :: '*' :: rest) := by
  intro inner held
  have closing : ['*', '/'] <:+: inner ++ ['*', '/'] := (List.suffix_append inner _).isInfix
  have inRest : Commentless rest := fun inner held =>
    unclosed (List.IsInfix.trans ⟨'/' :: '*' :: inner, [], by simp⟩ held)
  cases List.infix_cons_iff.mp held with
  | inl first =>
      obtain ⟨-, star⟩ := List.cons_prefix_cons.mp first
      obtain ⟨-, stretch⟩ := List.cons_prefix_cons.mp star
      exact unclosed (closing.trans stretch.isInfix)
  | inr later => exact commentless_cons (fun _ same => by cases same) inRest inner later

theorem length_stripComments_le (text : List Char) :
    (stripComments text).length ≤ text.length := by
  fun_induction stripComments text with
  | case1 => exact Nat.le_refl _
  | case2 rest after closed ih =>
      have shorter := length_lt_of_afterClose? closed
      simp only [List.length_cons]
      omega
  | case3 => exact Nat.le_refl _
  | case4 c rest apart ih => exact Nat.succ_le_succ ih

/-- A text without comments is one from which nothing is taken out. -/
theorem stripComments_eq_self_iff : stripComments text = text ↔ Commentless text := by
  fun_induction stripComments text with
  | case1 => simp [Commentless]
  | case2 rest after closed _ =>
      constructor
      · intro same
        have shorter := length_lt_of_afterClose? closed
        have kept := length_stripComments_le after
        rw [same] at kept
        simp only [List.length_cons] at kept
        omega
      · intro commentless
        obtain ⟨inner, -, rfl⟩ := afterClose?_eq_some_iff.mp closed
        exact absurd ⟨[], after, by simp⟩ (commentless inner)
  | case3 rest unclosed =>
      simpa using commentless_of_unclosed (afterClose?_eq_none_iff.mp unclosed)
  | case4 c rest apart ih =>
      rw [List.cons_inj_right, ih]
      constructor
      · exact commentless_cons apart
      · exact fun commentless inner held => commentless inner (List.infix_cons held)

instance (text : List Char) : Decidable (Commentless text) :=
  decidable_of_iff (stripComments text = text) stripComments_eq_self_iff

/-! ## Texts that leave no comment open -/

/-- A text in which every comment that opens is closed: it has no opening, or a comment follows its
first stretch and the text goes on behind that comment. -/
inductive CommentsClosed : List Char → Prop
  | plain {stretch} : Uncommented stretch → CommentsClosed stretch
  | comment {front inner rest} : Uncommented front → ¬ ['*', '/'] <:+: inner →
      CommentsClosed rest →
      CommentsClosed (front ++ '/' :: '*' :: (inner ++ '*' :: '/' :: rest))

/-- A character that opens no comment with the next one stays. -/
theorem stripComments_cons {c : Char} {rest : List Char}
    (apart : ¬ (c = '/' ∧ rest.head? = some '*')) :
    stripComments (c :: rest) = c :: stripComments rest := by
  rw [stripComments]
  intro more slash star
  exact apart ⟨slash, star ▸ rfl⟩

section Seam

variable {c : Char} {rest : List Char}

/-- What follows a text, where the two open no comment together, opens none with a part of it. -/
theorem seam_tail (seam : (c :: text).getLast? ≠ some '/' ∨ rest.head? ≠ some '*') :
    text.getLast? ≠ some '/' ∨ rest.head? ≠ some '*' := by
  cases text with
  | nil => exact .inl nofun
  | cons d text => simpa using seam

theorem not_opening (uncommented : Uncommented (c :: text))
    (seam : (c :: text).getLast? ≠ some '/' ∨ rest.head? ≠ some '*') :
    ¬ (c = '/' ∧ (text ++ rest).head? = some '*') := by
  intro opening
  cases text with
  | nil => exact seam.elim (fun other => other (by simp [opening.1])) fun other => other opening.2
  | cons d text => exact (uncommented_cons_iff.mp uncommented).1 opening

end Seam

theorem stripComments_append_left {front : List Char} (uncommented : Uncommented front)
    {rest : List Char} (seam : front.getLast? ≠ some '/' ∨ rest.head? ≠ some '*') :
    stripComments (front ++ rest) = front ++ stripComments rest := by
  induction front with
  | nil => rfl
  | cons c front ih =>
      have later := (uncommented_cons_iff.mp uncommented).2
      rw [List.cons_append, stripComments_cons (not_opening uncommented seam),
        ih later (seam_tail seam), List.cons_append]

theorem stripComments_comment {inner : List Char} (unclosed : ¬ ['*', '/'] <:+: inner)
    (rest : List Char) :
    stripComments ('/' :: '*' :: (inner ++ '*' :: '/' :: rest)) = stripComments rest := by
  have closed : afterClose? (inner ++ '*' :: '/' :: rest) = some rest :=
    afterClose?_eq_some_iff.mpr ⟨inner, unclosed, rfl⟩
  rw [stripComments]
  split
  · rename_i after found
    cases found.symm.trans closed
    rfl
  · rename_i failed
    cases failed.symm.trans closed

theorem stripComments_comment_append {front inner : List Char} (uncommented : Uncommented front)
    (unclosed : ¬ ['*', '/'] <:+: inner) (rest : List Char) :
    stripComments (front ++ '/' :: '*' :: (inner ++ '*' :: '/' :: rest)) =
      front ++ stripComments rest := by
  rw [stripComments_append_left uncommented (.inr (by simp)), stripComments_comment unclosed]

/-- Behind a text that leaves no comment open the search for comments starts anew. The slash at the
end is left out, since it could open a comment with the star that follows. -/
theorem CommentsClosed.stripComments_append (closed : CommentsClosed text)
    (last : text.getLast? ≠ some '/') (more : List Char) :
    stripComments (text ++ more) = stripComments text ++ stripComments more := by
  induction closed with
  | plain uncommented =>
      rw [stripComments_append_left uncommented (.inl last), stripComments_eq_self uncommented]
  | @comment front inner rest uncommented unclosed _ ih =>
      have later : rest.getLast? ≠ some '/' := by
        cases rest with
        | nil => simp
        | cons c rest => simpa [List.getLast?_append, List.getLast?_cons] using last
      have longer : front ++ '/' :: '*' :: (inner ++ '*' :: '/' :: rest) ++ more =
          front ++ '/' :: '*' :: (inner ++ '*' :: '/' :: (rest ++ more)) := by simp
      rw [longer, stripComments_comment_append uncommented unclosed,
        stripComments_comment_append uncommented unclosed, ih later, List.append_assoc]

/-! ## Comments put into a text -/

/-- What is written into a comment, and the place of a text where the comment goes. -/
structure Note where
  place : Nat
  inner : List Char

def Note.spelled (note : Note) : List Char := '/' :: '*' :: (note.inner ++ ['*', '/'])

/-- The comments that go to a place, one behind the other. -/
def notesAt (notes : List Note) (place : Nat) : List Char :=
  (notes.filter (·.place = place)).flatMap Note.spelled

/-- A text with comments put in, where places are counted on from the place in front of it. -/
def annotateFrom (notes : List Note) (place : Nat) : List Char → List Char
  | [] => notesAt notes place
  | c :: rest => notesAt notes place ++ c :: annotateFrom notes (place + 1) rest

/-- A text with comments put in. The place of a comment is the number of characters in front. -/
def annotate (notes : List Note) (text : List Char) : List Char := annotateFrom notes 0 text

variable {notes : List Note}

theorem stripComments_notesAt_append (unclosed : ∀ note ∈ notes, ¬ ['*', '/'] <:+: note.inner)
    (place : Nat) (rest : List Char) :
    stripComments (notesAt notes place ++ rest) = stripComments rest := by
  have chosen : ∀ note ∈ notes.filter (·.place = place), ¬ ['*', '/'] <:+: note.inner :=
    fun note member => unclosed note (List.mem_filter.mp member).1
  rw [notesAt]
  generalize notes.filter (·.place = place) = gone at chosen
  induction gone with
  | nil => rfl
  | cons note others ih =>
      obtain ⟨first, later⟩ := List.forall_mem_cons.mp chosen
      rw [← ih later, ← stripComments_comment first (others.flatMap Note.spelled ++ rest)]
      simp [Note.spelled]

/-- Comments start with a slash, so none of them makes a star the next character. -/
theorem head?_annotateFrom_append {place : Nat} {rest : List Char}
    (star : (annotateFrom notes place text ++ rest).head? = some '*') :
    (text ++ rest).head? = some '*' := by
  have behind (more : List Char) (starts : (notesAt notes place ++ more).head? = some '*') :
      more.head? = some '*' := by
    rw [notesAt] at starts
    cases chosen : notes.filter (·.place = place) with
    | nil => simpa [chosen] using starts
    | cons note others => simp [chosen, Note.spelled] at starts
  cases text with
  | nil => exact behind rest star
  | cons c more =>
      rw [annotateFrom, List.append_assoc] at star
      simpa using behind _ star

theorem stripComments_annotateFrom_append (uncommented : Uncommented text)
    (unclosed : ∀ note ∈ notes, ¬ ['*', '/'] <:+: note.inner) (place : Nat) {rest : List Char}
    (seam : text.getLast? ≠ some '/' ∨ rest.head? ≠ some '*') :
    stripComments (annotateFrom notes place text ++ rest) = text ++ stripComments rest := by
  induction text generalizing place with
  | nil => exact stripComments_notesAt_append unclosed place rest
  | cons c text ih =>
      have later := (uncommented_cons_iff.mp uncommented).2
      have kept : ¬ (c = '/' ∧ (annotateFrom notes (place + 1) text ++ rest).head? = some '*') :=
        fun opening =>
          not_opening uncommented seam ⟨opening.1, head?_annotateFrom_append opening.2⟩
      rw [annotateFrom, List.append_assoc, stripComments_notesAt_append unclosed, List.cons_append,
        stripComments_cons kept, ih later (place + 1) (seam_tail seam), List.cons_append]

/-- Taking comments out undoes putting them in, also in front of a comment that is never closed. -/
theorem stripComments_annotate (uncommented : Uncommented text)
    (unclosed : ∀ note ∈ notes, ¬ ['*', '/'] <:+: note.inner) :
    stripComments (annotate notes text) = text ∧
      ∀ ending, ¬ ['*', '/'] <:+: ending →
        stripComments (annotate notes text ++ '/' :: '*' :: ending) =
          text ++ '/' :: '*' :: ending := by
  constructor
  · have whole : stripComments (annotate notes text ++ []) = text ++ stripComments [] :=
      stripComments_annotateFrom_append uncommented unclosed 0 (.inr nofun)
    simpa [stripComments] using whole
  · intro ending endless
    have kept : stripComments ('/' :: '*' :: ending) = '/' :: '*' :: ending :=
      stripComments_eq_self_iff.mpr (commentless_of_unclosed endless)
    rw [annotate, stripComments_annotateFrom_append uncommented unclosed 0 (.inr (by simp)), kept]

/-- Comments that hold an opening, a star or a slash, two of them at one place, and next to the
stars and slashes of the text. -/
def remarks : List Note :=
  [⟨1, "/*".toList⟩, ⟨0, "*".toList⟩, ⟨1, "/".toList⟩, ⟨4, "\n\x7b".toList⟩]

theorem remarks_taken_out :
    Uncommented "*/a/".toList ∧ (∀ note ∈ remarks, ¬ ['*', '/'] <:+: note.inner) ∧
      ¬ ['*', '/'] <:+: "/ /*".toList ∧
      annotate remarks "*/a/".toList = "/***/*/*/**//*/*//a//*\n\x7b*/".toList ∧
      stripComments "/***/*/*/**//*/*//a//*\n\x7b*/".toList = "*/a/".toList ∧
      stripComments ("/***/*/*/**//*/*//a//*\n\x7b*/".toList ++ "/*/ /*".toList) =
        "*/a/".toList ++ "/*/ /*".toList := by
  have uncommented : Uncommented "*/a/".toList := by decide
  have unclosed : ∀ note ∈ remarks, ¬ ['*', '/'] <:+: note.inner := by decide
  have endless : ¬ ['*', '/'] <:+: "/ /*".toList := by decide
  have spelled : annotate remarks "*/a/".toList = "/***/*/*/**//*/*//a//*\n\x7b*/".toList := by
    decide
  obtain ⟨whole, opened⟩ := stripComments_annotate uncommented unclosed
  rw [spelled] at whole opened
  exact ⟨uncommented, unclosed, endless, spelled, whole, opened "/ /*".toList endless⟩

end StyleLookup.Sheet
