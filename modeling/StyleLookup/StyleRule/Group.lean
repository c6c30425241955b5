import StyleLookup.StyleRule.Basic

/-!
Grouping rules by the name of their style sheet.
-/

set_option autoImplicit false

namespace StyleLookup

structure RuleGroup where
  fileName : String
  rules : List StyleRule
deriving DecidableEq

namespace StyleRule

/-- The name under which a rule is grouped. A style sheet whose path has no file name counts as
unknown. -/
def groupName (rule : StyleRule) : String := rule.file.fileName?.getD "unknown"

/-- Adds a rule to the group of its name, or as a new group at the end. -/
def addToGroups (rule : StyleRule) : List RuleGroup → List RuleGroup
  | [] => [⟨rule.groupName, [rule]⟩]
  | group :: rest =>
      if group.fileName = rule.groupName then
        { group with rules := group.rules ++ [rule] } :: rest
      else group :: addToGroups rule rest

def groupByFile (rules : List StyleRule) : List RuleGroup :=
  rules.foldl (fun groups rule => rule.addToGroups groups) []

end StyleRule

end StyleLookup
