import Mathlib.Data.List.Induction
import StyleLookup.StyleRule.Group

/-!
Rules grouped by the names of their style sheets. Each rule that is added joins the group of its
name, or starts a group behind the others. So the groups are the rules dealt out by name: none is
lost or comes twice, rules of one name keep their order, and groups stand in the order of their
first rules.
-/

set_option autoImplicit false

namespace StyleLookup.StyleRule

/-- Whether the path of the style sheet ends in a name. Paths that end in no name are filed as
unknown, together with the files of that name. -/
def FiledUnder (name : String) (rule : StyleRule) : Prop :=
  rule.file.components.getLast? = some (.name name) ∨
    name = "unknown" ∧ ∀ entry, rule.file.components.getLast? ≠ some (.name entry)

variable {rule : StyleRule} {rules : List StyleRule} {groups : List RuleGroup} {name : String}

theorem filedUnder_iff : rule.FiledUnder name ↔ rule.groupName = name := by
  rw [FiledUnder, groupName, Path.fileName?]
  cases last : rule.file.components.getLast? with
  | none => simp [eq_comm]
  | some step => cases step <;> simp [eq_comm]

instance (name : String) : DecidablePred (FiledUnder name) :=
  fun _ => decidable_of_iff _ filedUnder_iff.symm

/-- Adding a rule makes one group longer, which has its name, or makes one group more, if none has
its name. -/
theorem addToGroups_cases (rule : StyleRule) (groups : List RuleGroup) :
    (∃ before group after, groups = before ++ group :: after ∧
        group.fileName = rule.groupName ∧
        rule.addToGroups groups =
          before ++ { group with rules := group.rules ++ [rule] } :: after) ∨
      (∀ group ∈ groups, group.fileName ≠ rule.groupName) ∧
        rule.addToGroups groups = groups ++ [⟨rule.groupName, [rule]⟩] := by
  induction groups with
  | nil => exact .inr ⟨fun _ => nofun, rfl⟩
  | cons first rest ih =>
      by_cases here : first.fileName = rule.groupName
      · exact .inl ⟨[], first, rest, rfl, here, by simp [addToGroups, here]⟩
      · have passed : rule.addToGroups (first :: rest) = first :: rule.addToGroups rest := by
          simp [addToGroups, here]
        rw [passed]
        cases ih with
        | inl joined =>
            obtain ⟨before, group, after, rfl, same, longer⟩ := joined
            exact .inl ⟨first :: before, group, after, rfl, same, by rw [longer, List.cons_append]⟩
        | inr apart =>
            obtain ⟨others, longer⟩ := apart
            exact .inr ⟨List.forall_mem_cons.mpr ⟨here, others⟩, by rw [longer, List.cons_append]⟩

/-- What some rules come to when they are grouped. -/
structure Grouped (rules : List StyleRule) (groups : List RuleGroup) : Prop where
  rules_ne_nil : ∀ group ∈ groups, group.rules ≠ []
  rules_eq : ∀ group ∈ groups, group.rules = rules.filter (·.FiledUnder group.fileName)
  ordered : groups.Pairwise fun earlier later =>
    rules.findIdx (·.FiledUnder earlier.fileName) < rules.findIdx (·.FiledUnder later.fileName)
  whole : (groups.flatMap RuleGroup.rules).Perm rules

theorem Grouped.first_lt_length (grouped : Grouped rules groups) {group : RuleGroup}
    (member : group ∈ groups) :
    rules.findIdx (·.FiledUnder group.fileName) < rules.length := by
  apply List.findIdx_lt_length_of_exists
  obtain ⟨first, inside⟩ := List.exists_mem_of_ne_nil _ (grouped.rules_ne_nil group member)
  rw [grouped.rules_eq group member] at inside
  exact ⟨first, List.mem_filter.mp inside⟩

/-- A rule that comes later does not change which rule of a group is its first. -/
theorem Grouped.first_append (grouped : Grouped rules groups) {group : RuleGroup}
    (member : group ∈ groups) (rule : StyleRule) :
    (rules ++ [rule]).findIdx (·.FiledUnder group.fileName) =
      rules.findIdx (·.FiledUnder group.fileName) := by
  rw [List.findIdx_append, if_pos (grouped.first_lt_length member)]

theorem Grouped.ordered_append (grouped : Grouped rules groups) (rule : StyleRule) :
    groups.Pairwise fun earlier later =>
      (rules ++ [rule]).findIdx (·.FiledUnder earlier.fileName) <
        (rules ++ [rule]).findIdx (·.FiledUnder later.fileName) := by
  apply grouped.ordered.imp_of_mem
  intro earlier later earlierMember laterMember less
  rwa [grouped.first_append earlierMember, grouped.first_append laterMember]

theorem filter_append_of_groupName_ne (other : name ≠ rule.groupName) :
    (rules ++ [rule]).filter (·.FiledUnder name) = rules.filter (·.FiledUnder name) := by
  have elsewhere : ¬ rule.FiledUnder name := fun filed => other (filedUnder_iff.mp filed).symm
  simp [elsewhere]

theorem filter_append_of_groupName_eq (same : name = rule.groupName) :
    (rules ++ [rule]).filter (·.FiledUnder name) = rules.filter (·.FiledUnder name) ++ [rule] := by
  have here : rule.FiledUnder name := filedUnder_iff.mpr same.symm
  simp [here]

theorem Grouped.fileName_ne {before after : List RuleGroup} {group other : RuleGroup}
    (grouped : Grouped rules (before ++ group :: after)) (member : other ∈ before ++ after) :
    other.fileName ≠ group.fileName := by
  intro same
  obtain ⟨-, behind, inFront⟩ := List.pairwise_append.mp grouped.ordered
  cases List.mem_append.mp member with
  | inl early =>
      have less := inFront other early group List.mem_cons_self
      rw [same] at less
      exact Nat.lt_irrefl _ less
  | inr late =>
      have less := List.rel_of_pairwise_cons behind late
      rw [same] at less
      exact Nat.lt_irrefl _ less

theorem Grouped.join {before after : List RuleGroup} {group : RuleGroup}
    (grouped : Grouped rules (before ++ group :: after)) (same : group.fileName = rule.groupName) :
    Grouped (rules ++ [rule])
      (before ++ { group with rules := group.rules ++ [rule] } :: after) := by
  have others : ∀ other ∈ before ++ after, other ∈ before ++ group :: after := by
    intro other member
    exact ((List.sublist_cons_self group after).append_left before).subset member
  constructor
  · intro other member
    cases List.mem_cons.mp (List.perm_middle.mem_iff.mp member) with
    | inl grown => simp [grown]
    | inr elsewhere => exact grouped.rules_ne_nil other (others other elsewhere)
  · intro other member
    cases List.mem_cons.mp (List.perm_middle.mem_iff.mp member) with
    | inl grown =>
        rw [grown, filter_append_of_groupName_eq same, grouped.rules_eq group (by simp)]
    | inr elsewhere =>
        rw [filter_append_of_groupName_ne (same ▸ grouped.fileName_ne elsewhere)]
        exact grouped.rules_eq other (others other elsewhere)
  · -- The order of groups is told from their names alone, which have not changed.
    have ordered := grouped.ordered_append rule
    rw [List.pairwise_append, List.pairwise_cons] at ordered ⊢
    simpa using ordered
  · have moved : (before ++ { group with rules := group.rules ++ [rule] } :: after).flatMap
          RuleGroup.rules =
        before.flatMap RuleGroup.rules ++ group.rules ++ rule :: after.flatMap RuleGroup.rules := by
      simp
    rw [moved]
    apply List.perm_middle.trans
    apply List.Perm.trans _ (List.perm_append_singleton rule rules).symm
    apply List.Perm.cons
    simpa using grouped.whole

theorem Grouped.start (grouped : Grouped rules groups)
    (fresh : ∀ group ∈ groups, group.fileName ≠ rule.groupName) :
    Grouped (rules ++ [rule]) (groups ++ [⟨rule.groupName, [rule]⟩]) := by
  -- A rule of this name would stand in a group, since the groups hold all rules.
  have unfiled : ∀ other ∈ rules, ¬ other.FiledUnder rule.groupName := by
    intro other member filed
    obtain ⟨group, held, inside⟩ := List.mem_flatMap.mp (grouped.whole.mem_iff.mpr member)
    rw [grouped.rules_eq group held] at inside
    have named : other.FiledUnder group.fileName := by simpa using (List.mem_filter.mp inside).2
    exact fresh group held ((filedUnder_iff.mp named).symm.trans (filedUnder_iff.mp filed))
  have here : rule.FiledUnder rule.groupName := filedUnder_iff.mpr rfl
  constructor
  · intro group member
    cases List.mem_append.mp member with
    | inl earlier => exact grouped.rules_ne_nil group earlier
    | inr added => simp [List.mem_singleton.mp added]
  · intro group member
    cases List.mem_append.mp member with
    | inl earlier =>
        rw [filter_append_of_groupName_ne (fresh group earlier)]
        exact grouped.rules_eq group earlier
    | inr added =>
        have none : rules.filter (·.FiledUnder rule.groupName) = [] := by
          simpa [List.filter_eq_nil_iff] using unfiled
        rw [List.mem_singleton.mp added, filter_append_of_groupName_eq rfl, none, List.nil_append]
  · apply List.pairwise_append.mpr
    refine ⟨grouped.ordered_append rule, List.pairwise_singleton _ _, ?_⟩
    intro earlier member later added
    have last : (rules ++ [rule]).findIdx (·.FiledUnder rule.groupName) = rules.length := by
      rw [List.findIdx_append, List.findIdx_eq_length.mpr (by simpa using unfiled)]
      simp [here]
    rw [List.mem_singleton.mp added, last, grouped.first_append member]
    exact grouped.first_lt_length member
  · simpa using grouped.whole.append_right [rule]

theorem Grouped.addToGroups (grouped : Grouped rules groups) (rule : StyleRule) :
    Grouped (rules ++ [rule]) (rule.addToGroups groups) := by
  cases addToGroups_cases rule groups with
  | inl joined =>
      obtain ⟨before, group, after, rfl, same, longer⟩ := joined
      exact longer ▸ grouped.join same
  | inr apart =>
      obtain ⟨fresh, longer⟩ := apart
      exact longer ▸ grouped.start fresh

end StyleLookup.StyleRule
