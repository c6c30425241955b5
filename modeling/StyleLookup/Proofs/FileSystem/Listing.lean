import Mathlib.Data.List.Nodup
import StyleLookup.FileSystem.Basic

/-!
Listings of directories. One that cannot be made is taken for empty by every lookup.
-/

set_option autoImplicit false

namespace StyleLookup

namespace Snapshot

/-- The entries of a directory; none if it cannot be listed. -/
def listing (fs : Snapshot) (directory : Path) : List DirEntry :=
  match fs.readDir directory with
  | .ok found => found
  | .error _ => []

theorem mem_listing_iff {fs : Snapshot} {directory : Path} {entry : DirEntry} :
    entry ∈ fs.listing directory ↔ ∃ found, fs.readDir directory = .ok found ∧ entry ∈ found := by
  unfold listing
  split
  · rename_i found listed
    constructor
    · exact fun member => ⟨found, listed, member⟩
    · rintro ⟨other, listedToo, member⟩
      cases listed.symm.trans listedToo
      exact member
  · rename_i fault failed
    constructor
    · intro member
      cases member
    · rintro ⟨other, listed, -⟩
      cases failed.symm.trans listed

theorem exists_mem_listing_iff {fs : Snapshot} {directory : Path} {holds : DirEntry → Prop} :
    (∃ entry ∈ fs.listing directory, holds entry) ↔
      ∃ found, fs.readDir directory = .ok found ∧ ∃ entry ∈ found, holds entry := by
  constructor
  · rintro ⟨entry, member, held⟩
    obtain ⟨found, listed, inside⟩ := mem_listing_iff.mp member
    exact ⟨found, listed, entry, inside, held⟩
  · rintro ⟨found, listed, entry, inside, held⟩
    exact ⟨entry, mem_listing_iff.mpr ⟨found, listed, inside⟩, held⟩

theorem entries_eq_listing (fs : Snapshot) (directory : Path) :
    fs.entries directory = fs.listing directory := by
  simp only [FileSystem.entries, listing, bind]
  cases fs.readDir directory <;> rfl

/-- Listings as file systems give them: an entry is found under its name in the directory that was
asked for, and no name is listed twice. Nothing is said about what the directories hold. -/
structure Orderly (fs : Snapshot) : Prop where
  path_eq : ∀ {directory : Path} {found : List DirEntry}, fs.readDir directory = .ok found →
    ∀ entry ∈ found, entry.path = directory.child entry.name
  names_nodup : ∀ {directory : Path} {found : List DirEntry}, fs.readDir directory = .ok found →
    (found.map (·.name)).Nodup

theorem Orderly.path_of_mem_listing {fs : Snapshot} (orderly : fs.Orderly) {directory : Path}
    {entry : DirEntry} (member : entry ∈ fs.listing directory) :
    entry.path = directory.child entry.name := by
  obtain ⟨found, listed, inside⟩ := mem_listing_iff.mp member
  exact orderly.path_eq listed entry inside

theorem Orderly.nodup_listing {fs : Snapshot} (orderly : fs.Orderly) (directory : Path) :
    ((fs.listing directory).map (·.name)).Nodup := by
  unfold listing
  split
  · rename_i found listed
    exact orderly.names_nodup listed
  · exact List.nodup_nil

end Snapshot

end StyleLookup
