import Mathlib.Data.List.Induction
import Mathlib.Data.List.Nodup
import StyleLookup.FileSystem.Linked
import StyleLookup.Watch

/-!
The life of a set of watched roots: requests to watch a root and to stop watching it in any order,
while directories and links come and go between them. A place is watched exactly if a request
recorded it and none has dropped it since. A request to stop drops the place that the root leads to
at that time, which need not be the place that was recorded for it.
-/

set_option autoImplicit false

namespace StyleLookup.WatchedRoots

/-- A request, with the canonical paths as they are when it is made. -/
inductive Request where
  | watch (canonical : Path → Except FileFault Path) (root : Path)
  | unwatch (canonical : Path → Except FileFault Path) (root : Path)

namespace Request

def Records (place : Path) : Request → Prop
  | watch canonical root => canonical root = .ok place
  | unwatch _ _ => False

def Drops (place : Path) : Request → Prop
  | watch _ _ => False
  | unwatch canonical root => canonical root = .ok place

end Request

/-- What a request is answered, and the roots that are watched after it. A request that fails
leaves them as they are. -/
def serve (watched : WatchedRoots) : Request → Except Fault Unit × WatchedRoots
  | .watch canonical root =>
      match watched.watch canonical root with
      | .ok grown => (.ok (), grown)
      | .error fault => (.error fault, watched)
  | .unwatch canonical root => (.ok (), watched.unwatch canonical root)

def run (watched : WatchedRoots) (requests : List Request) : WatchedRoots :=
  requests.foldl (fun reached request => (reached.serve request).2) watched

variable {watched : WatchedRoots} {requests : List Request} {place : Path}

theorem run_concat (watched : WatchedRoots) (requests : List Request) (request : Request) :
    watched.run (requests ++ [request]) = ((watched.run requests).serve request).2 := by
  simp [run]

theorem run_append (watched : WatchedRoots) (earlier later : List Request) :
    watched.run (earlier ++ later) = (watched.run earlier).run later :=
  List.foldl_append

/-! ## One request -/

theorem serve_watch_of_ok {canonical : Path → Except FileFault Path} {root : Path}
    (found : canonical root = .ok place) :
    watched.serve (.watch canonical root) =
      (.ok (), if place ∈ watched.roots then watched else ⟨watched.roots ++ [place]⟩) := by
  simp [serve, watch, found]

theorem serve_watch_of_error {canonical : Path → Except FileFault Path} {root : Path}
    {fault : FileFault} (lost : canonical root = .error fault) :
    watched.serve (.watch canonical root) = (.error (.inaccessible root fault), watched) := by
  simp [serve, watch, lost]

theorem serve_unwatch_of_ok {canonical : Path → Except FileFault Path} {root : Path}
    (found : canonical root = .ok place) :
    watched.serve (.unwatch canonical root) = (.ok (), ⟨watched.roots.filter (· != place)⟩) := by
  simp [serve, unwatch, found]

theorem serve_unwatch_of_error {canonical : Path → Except FileFault Path} {root : Path}
    {fault : FileFault} (lost : canonical root = .error fault) :
    watched.serve (.unwatch canonical root) = (.ok (), watched) := by
  simp [serve, unwatch, lost]

theorem mem_roots_serve_iff {request : Request} :
    place ∈ (watched.serve request).2.roots ↔
      request.Records place ∨ place ∈ watched.roots ∧ ¬ request.Drops place := by
  cases request with
  | watch canonical root =>
      cases reached : canonical root with
      | error fault => simp [serve_watch_of_error reached, Request.Records, Request.Drops, reached]
      | ok found =>
          rw [serve_watch_of_ok reached]
          simp only [Request.Records, Request.Drops, reached, Except.ok.injEq]
          split
          · constructor
            · exact fun member => .inr ⟨member, not_false⟩
            · rintro (rfl | ⟨member, -⟩) <;> assumption
          · rw [List.mem_append, List.mem_singleton, and_iff_left not_false, or_comm, eq_comm]
  | unwatch canonical root =>
      cases reached : canonical root with
      | error fault =>
          simp [serve_unwatch_of_error reached, Request.Records, Request.Drops, reached]
      | ok found =>
          rw [serve_unwatch_of_ok reached]
          simp only [Request.Records, Request.Drops, reached, Except.ok.injEq, List.mem_filter,
            bne_iff_ne, false_or, ne_comm (a := place)]

theorem nodup_roots_serve (distinct : watched.roots.Nodup) (request : Request) :
    (watched.serve request).2.roots.Nodup := by
  cases request with
  | watch canonical root =>
      cases reached : canonical root with
      | error fault => rwa [serve_watch_of_error reached]
      | ok found =>
          rw [serve_watch_of_ok reached]
          split
          · exact distinct
          · rename_i fresh
            exact List.nodup_append.mpr ⟨distinct, List.nodup_singleton found, by grind⟩
  | unwatch canonical root =>
      cases reached : canonical root with
      | error fault => rwa [serve_unwatch_of_error reached]
      | ok found =>
          rw [serve_unwatch_of_ok reached]
          exact distinct.filter _

theorem not_drops_of_records {request : Request} (records : request.Records place) :
    ¬ request.Drops place := by
  cases request with
  | watch canonical root => exact not_false
  | unwatch canonical root => exact records.elim

/-! ## Runs -/

/-- A request in a run did something, and nothing behind it has undone this. -/
def Stands (does undoes : Request → Prop) (requests : List Request) : Prop :=
  ∃ before request after, requests = before ++ request :: after ∧ does request ∧
    ∀ later ∈ after, ¬ undoes later

theorem not_stands_nil (does undoes : Request → Prop) : ¬ Stands does undoes [] := by
  rintro ⟨before, request, after, whole, -⟩
  cases before <;> cases whole

theorem stands_concat_iff {does undoes : Request → Prop} {request : Request} :
    Stands does undoes (requests ++ [request]) ↔
      does request ∨ Stands does undoes requests ∧ ¬ undoes request := by
  constructor
  · rintro ⟨before, doing, after, whole, done, kept⟩
    rcases List.eq_nil_or_concat' after with rfl | ⟨between, last, rfl⟩
    · obtain ⟨-, same⟩ := List.append_inj' whole rfl
      cases same
      exact .inl done
    · rw [← List.cons_append, ← List.append_assoc] at whole
      obtain ⟨rfl, same⟩ := List.append_inj' whole rfl
      cases same
      exact .inr ⟨⟨before, doing, between, rfl, done, fun later member =>
        kept later (List.mem_append_left _ member)⟩, kept request (by simp)⟩
  · rintro (done | ⟨⟨before, doing, after, rfl, done, kept⟩, last⟩)
    · exact ⟨requests, request, [], rfl, done, nofun⟩
    · refine ⟨before, doing, after ++ [request], by simp, done, ?_⟩
      intro later member
      rcases List.mem_append.mp member with earlier | added
      · exact kept later earlier
      · exact List.mem_singleton.mp added ▸ last

theorem mem_roots_run_iff :
    place ∈ (empty.run requests).roots ↔
      Stands (Request.Records place) (Request.Drops place) requests := by
  induction requests using List.reverseRecOn with
  | nil => exact iff_of_false (by simp [run, empty]) (not_stands_nil _ _)
  | append_singleton requests last ih => rw [run_concat, mem_roots_serve_iff, stands_concat_iff, ih]

theorem nodup_roots_run (requests : List Request) : (empty.run requests).roots.Nodup := by
  induction requests using List.reverseRecOn with
  | nil => exact List.nodup_nil
  | append_singleton requests last ih =>
      rw [run_concat]
      exact nodup_roots_serve ih last

/-- A place that was watched before a run is no longer watched after it exactly if a request of the
run dropped it for good. -/
theorem not_mem_roots_run_iff (held : place ∈ watched.roots) :
    place ∉ (watched.run requests).roots ↔
      Stands (Request.Drops place) (Request.Records place) requests := by
  induction requests using List.reverseRecOn with
  | nil => exact iff_of_false (fun absent => absent held) (not_stands_nil _ _)
  | append_singleton requests last ih =>
      rw [run_concat, mem_roots_serve_iff, stands_concat_iff, ← ih]
      have kept : last.Records place → ¬ last.Drops place := not_drops_of_records
      tauto

theorem not_mem_roots_run_of_unrecorded (absent : place ∉ watched.roots)
    (unrecorded : ∀ request ∈ requests, ¬ request.Records place) :
    place ∉ (watched.run requests).roots := by
  induction requests using List.reverseRecOn with
  | nil => exact absent
  | append_singleton requests last ih =>
      rw [run_concat, mem_roots_serve_iff, not_or]
      refine ⟨unrecorded last (by simp), fun member => ?_⟩
      exact ih (fun request inside => unrecorded request (List.mem_append_left _ inside)) member.1

/-- The watched roots after any run of requests. Places are watched once each, and exactly those
that a request recorded and none has dropped since. A request that fails changes nothing, and one
that succeeds in watching a root has its canonical path watched. What a request to watch a root
recorded is dropped by a later request to stop exactly if the root still has this canonical path
then, or the place has been dropped already in between. -/
theorem roots_follow_requests (requests : List Request) :
    (empty.run requests).roots.Nodup ∧
      (∀ place, place ∈ (empty.run requests).roots ↔
        Stands (Request.Records place) (Request.Drops place) requests) ∧
      (∀ canonical root fault,
        ((empty.run requests).serve (.watch canonical root)).1 = .error fault →
          ((empty.run requests).serve (.watch canonical root)).2 = empty.run requests) ∧
      (∀ canonical root, ((empty.run requests).serve (.watch canonical root)).1 = .ok () →
        ∃ place, canonical root = .ok place ∧
          place ∈ ((empty.run requests).serve (.watch canonical root)).2.roots) ∧
      (∀ before earlier root place between,
        requests = before ++ .watch earlier root :: between → earlier root = .ok place →
          ∀ now : Path → Except FileFault Path,
            ((∀ after, (∀ later ∈ after, ¬ later.Records place) →
                place ∉ (empty.run (requests ++ .unwatch now root :: after)).roots) ↔
              now root = .ok place ∨
                Stands (Request.Drops place) (Request.Records place) between)) := by
  refine ⟨nodup_roots_run requests, fun place => mem_roots_run_iff, ?_, ?_, ?_⟩
  · intro canonical root fault failed
    cases reached : canonical root with
    | error lost => rw [serve_watch_of_error reached]
    | ok found => simp [serve_watch_of_ok reached] at failed
  · intro canonical root succeeded
    cases reached : canonical root with
    | error lost => simp [serve_watch_of_error reached] at succeeded
    | ok found => exact ⟨found, rfl, mem_roots_serve_iff.mpr (.inl reached)⟩
  · intro before earlier root place between whole recorded now
    have held : place ∈ (empty.run (before ++ [.watch earlier root])).roots := by
      rw [run_concat]
      exact mem_roots_serve_iff.mpr (.inl recorded)
    have onward :
        empty.run requests = (empty.run (before ++ [.watch earlier root])).run between := by
      rw [whole, ← run_append, List.append_assoc, List.singleton_append]
    have stopped : place ∉ (empty.run (requests ++ [.unwatch now root])).roots ↔
        now root = .ok place ∨ Stands (Request.Drops place) (Request.Records place) between := by
      rw [run_concat, mem_roots_serve_iff, ← not_mem_roots_run_iff held, ← onward]
      simp only [Request.Records, Request.Drops, false_or]
      tauto
    rw [← stopped]
    constructor
    · intro never
      exact never [] nofun
    · intro absent after unrecorded
      rw [← List.singleton_append, ← List.append_assoc, run_append]
      exact not_mem_roots_run_of_unrecorded absent unrecorded

def siteTree : LinkedTree := ⟨[(["site"], .directory)], []⟩

theorem resolve_site (tree : LinkedTree) :
    tree.resolve ⟨"/site"⟩ = tree.follow LinkedTree.linkLimit [] ["", "site"] := by
  have filled : (Path.text ⟨"/site"⟩).isEmpty = false := by decide +kernel
  have absolute : Path.isAbsolute ⟨"/site"⟩ = true := by decide +kernel
  have pieces : (Path.pieces ⟨"/site"⟩).map String.ofList = ["", "site"] := by decide +kernel
  rw [LinkedTree.resolve, filled, absolute, pieces, if_neg Bool.false_ne_true, if_pos rfl]

theorem canonical_siteTree : siteTree.canonical ⟨"/site"⟩ = .ok ⟨"/site"⟩ := by
  have spelled : LinkedTree.pathOf ["site"] = ⟨"/site"⟩ := by decide +kernel
  simp [LinkedTree.canonical, resolve_site, LinkedTree.follow, LinkedTree.find?, siteTree,
    Except.map, spelled]

theorem canonical_remove_siteTree :
    (siteTree.remove ⟨"/site"⟩).canonical ⟨"/site"⟩ = .error .notFound := by
  have steps : LinkedTree.stepsOn ⟨"/site"⟩ = ["site"] := by decide +kernel
  have bare : siteTree.remove ⟨"/site"⟩ = LinkedTree.bare := by
    simp [LinkedTree.remove, siteTree, steps, LinkedTree.follow, LinkedTree.bare]
  simp [bare, LinkedTree.bare, LinkedTree.canonical, resolve_site, LinkedTree.follow,
    LinkedTree.find?, Except.map]

/-- A directory that is gone has no canonical path any more, so a request to stop watching it
succeeds and drops nothing. -/
theorem removed_root_kept :
    let removed : LinkedTree := siteTree.remove ⟨"/site"⟩
    let watching : WatchedRoots := empty.run [.watch siteTree.canonical ⟨"/site"⟩]
    (empty.serve (.watch siteTree.canonical ⟨"/site"⟩)).1 = .ok () ∧
      watching.roots = [⟨"/site"⟩] ∧
      (watching.serve (.unwatch removed.canonical ⟨"/site"⟩)).1 = .ok () ∧
      (watching.serve (.unwatch removed.canonical ⟨"/site"⟩)).2.roots = [⟨"/site"⟩] := by
  intro removed watching
  have watched : watching.roots = [⟨"/site"⟩] := by
    simp [watching, run, serve_watch_of_ok canonical_siteTree, empty]
  rw [serve_watch_of_ok canonical_siteTree, serve_unwatch_of_error canonical_remove_siteTree]
  exact ⟨rfl, watched, rfl, watched⟩

end StyleLookup.WatchedRoots
