import StyleLookup.Proofs.Text.Stretch
import StyleLookup.Proofs.Toml.Value

/-!
Documents of written settings are read back setting by setting: each line is one statement that
defines its key in the root table.
-/

set_option autoImplicit false

namespace StyleLookup.Toml

/-- A key that can stand in a line without quotes. -/
def IsBareKey (key : String) : Prop :=
  key.toList ≠ [] ∧ ∀ c ∈ key.toList, isBareKeyChar c = true

-- The characters of the key are gone through, not all characters there are.
instance (key : String) : Decidable (IsBareKey key) :=
  @instDecidableAnd _ _ inferInstance
    (List.decidableBAll (fun c => isBareKeyChar c = true) key.toList)

theorem isSpace_eq_false {c : Char} (blank : c ≠ ' ') (tab : c ≠ '\t') : isSpace c = false := by
  rw [isSpace, beq_eq_false_iff_ne.mpr blank, beq_eq_false_iff_ne.mpr tab]
  rfl

theorem exists_write_eq_cons (setting : Setting) :
    ∃ c more, isSpace c = false ∧ setting.write = c :: more := by
  cases setting with
  | text value =>
      obtain ⟨mark, more, quote, written⟩ := exists_writeString_eq_cons value.toList
      refine ⟨mark, more, ?_, written⟩
      cases quote with
      | inl double => rw [double]; rfl
      | inr single => rw [single]; rfl
  | whole value =>
      obtain ⟨c, more, start, written⟩ := exists_signedDecimal_eq_cons value
      have ink : isSpace c = false :=
        isSpace_eq_false (ne_of_numberStart start (by decide)) (ne_of_numberStart start (by decide))
      exact ⟨c, more, ink, written⟩
  | flag value => cases value <;> exact ⟨_, _, rfl, rfl⟩
  | list items => rcases items with _ | ⟨first, _ | ⟨second, others⟩⟩ <;> exact ⟨_, _, rfl, rfl⟩

theorem skipSpace_cons {c : Char} (ink : isSpace c = false) (rest : List Char) :
    skipSpace (c :: rest) = c :: rest := by
  simp [skipSpace, ink]

/-! ## Lines -/

theorem ne_of_isBareKeyChar {c mark : Char} (inKey : isBareKeyChar c = true)
    (other : isBareKeyChar mark = false) : c ≠ mark :=
  fun same => absurd (same ▸ inKey) (Bool.eq_false_iff.mp other)

section

variable {key : String} (bare : IsBareKey key)
include bare

theorem IsBareKey.exists_eq_cons :
    ∃ c more, isBareKeyChar c = true ∧ key.toList = c :: more := by
  cases spelled : key.toList with
  | nil => exact absurd spelled bare.1
  | cons c more => exact ⟨c, more, bare.2 c (spelled ▸ List.mem_cons_self), rfl⟩

theorem keyStep?_bare (rest : List Char) :
    keyStep? (key.toList ++ ' ' :: rest) = some (key, ' ' :: rest) := by
  have stop : ∀ c ∈ (' ' :: rest).head?, isBareKeyChar c = false := by simp [isBareKeyChar]
  have taken := Text.takeWhile_stretch bare.2 stop
  have dropped := Text.dropWhile_stretch bare.2 stop
  obtain ⟨c, more, inKey, spelled⟩ := bare.exists_eq_cons
  have filled : key.toList.isEmpty = false := by rw [spelled]; rfl
  rw [keyStep?]
  · simp [taken, dropped, filled]
  all_goals
    intro later same
    rw [spelled, List.cons_append] at same
    exact ne_of_isBareKeyChar inKey (by decide) (List.cons.inj same).1

theorem skipSpace_bare (rest : List Char) :
    skipSpace (key.toList ++ rest) = key.toList ++ rest := by
  obtain ⟨c, more, inKey, spelled⟩ := bare.exists_eq_cons
  have ink : isSpace c = false :=
    isSpace_eq_false (ne_of_isBareKeyChar inKey (by decide)) (ne_of_isBareKeyChar inKey (by decide))
  rw [spelled, List.cons_append, skipSpace_cons ink]

theorem key?_bare (limit : Nat) (rest : List Char) :
    key? (limit + 1) (key.toList ++ ' ' :: '=' :: rest) = some ([key], '=' :: rest) := by
  have spaced : skipSpace (' ' :: '=' :: rest) = '=' :: rest := rfl
  rw [key?, skipSpace_bare bare, keyStep?_bare bare]
  simp [spaced]

variable {setting : Setting} (held : setting.IsHeld)
include held

theorem pair?_writeLine (rest : List Char) :
    pair? (value? nestingLimit) (writeLine key setting ++ rest) =
      some ([key], setting.node, '\n' :: rest) := by
  have line : writeLine key setting ++ rest =
      key.toList ++ ' ' :: '=' :: ' ' :: (setting.write ++ '\n' :: rest) := by
    simp [writeLine]
  obtain ⟨c, more, ink, written⟩ := exists_write_eq_cons setting
  have spaced : skipSpace (' ' :: (setting.write ++ '\n' :: rest)) =
      setting.write ++ '\n' :: rest := by
    rw [written]
    exact skipSpace_cons ink _
  rw [line, pair?, show nestingLimit = 78 + 1 from rfl, key?_bare bare]
  simp [spaced, value?_write_append held]

theorem statements?_writeLine {entries : Entries} (fresh : entries.find? key = none) (bound : Nat)
    (rest : List Char) :
    statements? (bound + 1) entries [] (writeLine key setting ++ rest) =
      statements? bound (entries ++ [(key, setting.node)]) [] rest := by
  have pair := pair?_writeLine bare held rest
  have spaced : skipSpace (writeLine key setting ++ rest) = writeLine key setting ++ rest := by
    simp only [writeLine, List.append_assoc]
    exact skipSpace_bare bare _
  have ended : finishLine? ('\n' :: rest) = some rest := rfl
  have grown : entries.changeAt [] (defineKey [key] setting.node) =
      some (entries ++ [(key, setting.node)]) := by
    simp [Entries.changeAt, defineKey, Entries.define, fresh]
  obtain ⟨c, more, inKey, spelled⟩ := bare.exists_eq_cons
  obtain ⟨line, same⟩ : ∃ line, writeLine key setting ++ rest = c :: line :=
    ⟨_, by rw [writeLine, spelled]; rfl⟩
  rw [same] at pair spaced ⊢
  have inner : afterNewline? (c :: line) = none := by
    rw [afterNewline?]
    all_goals
      intro later same
      exact ne_of_isBareKeyChar inKey (by decide) (List.cons.inj same).1
  rw [statements?, spaced]
  split
  · exact absurd ‹_› (List.cons_ne_nil c line)
  · exact absurd (List.cons.inj ‹_›).1 (ne_of_isBareKeyChar inKey (by decide))
  · exact absurd (List.cons.inj ‹_›).1 (ne_of_isBareKeyChar inKey (by decide))
  · rw [inner]
    simp [pair, ended, grown]

end

/-! ## Documents -/

/-- Settings that a document can hold: with keys that need no quotes and differ from one another. -/
structure IsWritable (settings : List (String × Setting)) : Prop where
  bare : ∀ entry ∈ settings, IsBareKey entry.1
  held : ∀ entry ∈ settings, entry.2.IsHeld
  distinct : (settings.map Prod.fst).Nodup

def nodes (settings : List (String × Setting)) : Entries :=
  settings.map fun (key, setting) => (key, setting.node)

theorem Entries.find?_eq_none {entries : Entries} {key : String}
    (absent : key ∉ entries.map Prod.fst) : entries.find? key = none := by
  rw [Entries.find?, List.lookup_eq_none_iff]
  intro entry member
  rw [bne_iff_ne]
  intro same
  exact absent (same ▸ List.mem_map_of_mem member)

theorem length_le_length_writeDocument (settings : List (String × Setting)) :
    settings.length ≤ (writeDocument settings).length := by
  induction settings with
  | nil => exact Nat.le_refl 0
  | cons entry settings ih =>
      have longer : writeDocument (entry :: settings) =
          writeLine entry.1 entry.2 ++ writeDocument settings := rfl
      simp only [longer, writeLine, List.length_append, List.length_cons, List.length_nil]
      omega

theorem statements?_writeDocument {settings : List (String × Setting)}
    (bare : ∀ entry ∈ settings, IsBareKey entry.1) (held : ∀ entry ∈ settings, entry.2.IsHeld)
    {entries : Entries} (distinct : (entries.map Prod.fst ++ settings.map Prod.fst).Nodup)
    {bound : Nat} (enough : settings.length < bound) :
    statements? bound entries [] (writeDocument settings) = some (entries ++ nodes settings) := by
  -- No line opens a table, so each adds its key to the root table behind those before it.
  induction settings generalizing entries bound with
  | nil =>
      cases bound with
      | zero => exact absurd enough (Nat.lt_irrefl 0)
      | succ bound => exact congrArg some (List.append_nil entries).symm
  | cons entry settings ih =>
      cases bound with
      | zero => exact absurd enough (Nat.not_lt_zero _)
      | succ bound =>
          have fresh : entry.1 ∉ entries.map Prod.fst := by
            intro present
            exact (List.nodup_append.mp distinct).2.2 _ present _ List.mem_cons_self rfl
          have others : ((entries ++ [(entry.1, entry.2.node)]).map Prod.fst ++
              settings.map Prod.fst).Nodup := by
            simpa using distinct
          have lines : writeDocument (entry :: settings) =
              writeLine entry.1 entry.2 ++ writeDocument settings := rfl
          rw [lines, statements?_writeLine (bare entry List.mem_cons_self)
            (held entry List.mem_cons_self) (Entries.find?_eq_none fresh),
            ih (fun other member => bare other (List.mem_cons_of_mem entry member))
              (fun other member => held other (List.mem_cons_of_mem entry member)) others
              (Nat.lt_of_succ_lt_succ enough), List.append_assoc]
          rfl

theorem isBareKeyChar_of_mem_head?_writeDocument {settings : List (String × Setting)}
    (bare : ∀ entry ∈ settings, IsBareKey entry.1) :
    ∀ c ∈ (writeDocument settings).head?, isBareKeyChar c = true := by
  cases settings with
  | nil => exact fun c first => nomatch first
  | cons entry settings =>
      obtain ⟨first, more, inKey, spelled⟩ := (bare entry List.mem_cons_self).exists_eq_cons
      simp [writeDocument, writeLine, spelled, inKey]

theorem document?_of_unmarked {text : List Char} (unmarked : ∀ c ∈ text.head?, c ≠ '\uFEFF') :
    document? text = statements? (text.length + 1) [] [] text := by
  unfold document?
  split
  · exact absurd rfl (unmarked '\uFEFF' rfl)
  · rfl

theorem document?_writeDocument {settings : List (String × Setting)}
    (writable : IsWritable settings) :
    document? (writeDocument settings) = some (nodes settings) := by
  have counted := length_le_length_writeDocument settings
  have distinct : (([] : Entries).map Prod.fst ++ settings.map Prod.fst).Nodup := writable.distinct
  rw [document?_of_unmarked]
  · exact statements?_writeDocument writable.bare writable.held distinct
      (Nat.lt_succ_of_le counted)
  · intro c first
    have inKey := isBareKeyChar_of_mem_head?_writeDocument writable.bare c first
    exact ne_of_isBareKeyChar inKey (by decide)

end StyleLookup.Toml
