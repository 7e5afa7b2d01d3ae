import Bitty.Library.Pattern
import Bitty.Library.Framing
import Bitty.Package.Sha256

/-! The digest of a tree of files, and the drift of a local package from its lock. -/

namespace Bitty.Package

open Text Framing

/-- A file of a staged tree, by its relative path. The length of a slice is a 64-bit number. -/
structure TreeFile where
  path : Text
  content : List UInt8
  pathLen : byteLen path < 2 ^ 64
  contentLen : content.length < 2 ^ 64

theorem TreeFile.ext {a b : TreeFile} (path : a.path = b.path) (content : a.content = b.content) : a = b := by
  cases a
  cases b
  cases path
  cases content
  rfl

instance : DecidableEq TreeFile := fun a b =>
  decidable_of_iff (a.path = b.path ∧ a.content = b.content)
    ⟨fun same => TreeFile.ext same.1 same.2, fun same => same ▸ ⟨rfl, rfl⟩⟩

/-- One entry: `path_len:u64LE || path || content_len:u64LE || content`. -/
def TreeFile.entry (file : TreeFile) : List UInt8 :=
  leBytes 8 (byteLen file.path) ++ file.path.bytes.data.toList ++ leBytes 8 file.content.length ++ file.content

def canonicalTreeBytes (files : List TreeFile) : ByteArray :=
  ⟨((sortBy TreeFile.path files).flatMap TreeFile.entry).toArray⟩

def digestTreeFiles (files : List TreeFile) : Text := sha256Hex (canonicalTreeBytes files)

def digestLocalContent (files : List TreeFile) : Text := digestTreeFiles files

structure LocalPathDrift where
  package : Text
  recorded : Text
  current : Text

def checkLocalPathDrift (packageId recordedDigest : Text) (currentFiles : List TreeFile) : Except LocalPathDrift Unit :=
  let current := digestLocalContent currentFiles
  Checks.refuseIf (lower current ≠ lower recordedDigest)
    { package := packageId, recorded := lower recordedDigest, current }

theorem length_bytes (text : Text) : text.bytes.data.toList.length = byteLen text := Array.length_toList

theorem bytes_toList_injective {s t : Text} (same : s.bytes.data.toList = t.bytes.data.toList) : s = t :=
  bytes_injective (ByteArray.ext (Array.toList_inj.mp same))

theorem delimited_entry : Delimited TreeFile.entry where
  nonempty file none := by
    have long := congrArg List.length none
    simp only [TreeFile.entry, List.length_append, length_leBytes, List.length_nil] at long
    omega
  stops a b x y same := by
    have framed (file : TreeFile) : file.entry = frame 8 file.path.bytes.data.toList ++ frame 8 file.content := by
      rw [TreeFile.entry, frame, frame, length_bytes, List.append_assoc]
    have short (file : TreeFile) : file.path.bytes.data.toList.length < 256 ^ 8 := by
      rw [length_bytes]
      exact file.pathLen
    rw [framed, framed, List.append_assoc, List.append_assoc, frame_append_inj (short a) (short b),
      frame_append_inj a.contentLen b.contentLen] at same
    obtain ⟨path, content, rest⟩ := same
    exact ⟨TreeFile.ext (bytes_toList_injective path) content, rest⟩

theorem canonicalTreeBytes_eq_iff {files others : List TreeFile} (once : (files.map TreeFile.path).Nodup) :
    canonicalTreeBytes files = canonicalTreeBytes others ↔ files.Perm others := by
  rw [← sortBy_eq_iff once]
  constructor
  · intro same
    exact delimited_entry.flatMap_injective (List.toArray_inj (ByteArray.mk.inj same))
  · intro same
    rw [canonicalTreeBytes, canonicalTreeBytes, same]

theorem lower_hexLower (bytes : List UInt8) : lower (hexLower bytes) = hexLower bytes := by
  have digit : ∀ n < 16, (hexDigit n).toLower = hexDigit n := by decide
  refine (List.map_congr_left fun c member => ?_).trans (List.map_id _)
  obtain ⟨n, small, rfl⟩ := exists_of_mem_hexLower member
  exact digit n small

theorem lower_digestLocalContent (files : List TreeFile) : lower (digestLocalContent files) = digestLocalContent files :=
  lower_hexLower _

theorem checkLocalPathDrift_ok {packageId recorded : Text} {files : List TreeFile} :
    checkLocalPathDrift packageId recorded files = .ok () ↔ digestLocalContent files = lower recorded := by
  rw [checkLocalPathDrift, Checks.refuseIf_ok, not_not, lower_digestLocalContent]

theorem checkLocalPathDrift_error {packageId recorded : Text} {files : List TreeFile}
    (other : digestLocalContent files ≠ lower recorded) : checkLocalPathDrift packageId recorded files =
      .error { package := packageId, recorded := lower recorded, current := digestLocalContent files } := by
  rw [checkLocalPathDrift, Checks.refuseIf, lower_digestLocalContent, if_pos other]

/-- The encoding of a tree tells exactly its files, in any order. So a package that was locked with a digest has drifted
when a file was added, removed, renamed or edited, unless the digest collides, and never when its files were reordered. -/
theorem canonicalTreeBytes_detects {files others : List TreeFile} (once : (files.map TreeFile.path).Nodup) :
    (canonicalTreeBytes files = canonicalTreeBytes others ↔ files.Perm others) ∧
    ∀ packageId recorded, lower recorded = digestLocalContent files →
      (files.Perm others → checkLocalPathDrift packageId recorded others = .ok ()) ∧
      ((digestTreeFiles files = digestTreeFiles others → canonicalTreeBytes files = canonicalTreeBytes others) →
        ¬files.Perm others → checkLocalPathDrift packageId recorded others =
          .error { package := packageId, recorded := lower recorded, current := digestLocalContent others }) := by
  have encoded := @canonicalTreeBytes_eq_iff _ others once
  refine ⟨encoded, fun packageId recorded locked => ⟨fun perm => ?_, fun apart different => ?_⟩⟩
  · rw [checkLocalPathDrift_ok, locked, digestLocalContent, digestLocalContent, digestTreeFiles, digestTreeFiles,
      encoded.mpr perm]
  · refine checkLocalPathDrift_error fun same => different (encoded.mp (apart ?_))
    rw [locked] at same
    exact same.symm

def carrier : List TreeFile := [⟨"carrier.txt\nextra.lua".toList, [1], by decide, by decide⟩]

def splitCarrier : List TreeFile :=
  [⟨"carrier.txt".toList, [], by decide, by decide⟩, ⟨"extra.lua".toList, [1], by decide, by decide⟩]

theorem canonicalTreeBytes_detects_carrier : canonicalTreeBytes splitCarrier ≠ canonicalTreeBytes carrier ∧
    checkLocalPathDrift "xuepoo.pkg".toList (digestLocalContent splitCarrier) splitCarrier.reverse = .ok () :=
  have once : (splitCarrier.map TreeFile.path).Nodup := by decide
  ⟨fun same => absurd ((canonicalTreeBytes_detects once).1.mp same).length_eq (by decide),
    ((canonicalTreeBytes_detects once).2 _ _ (lower_digestLocalContent _)).1 (List.reverse_perm splitCarrier).symm⟩

end Bitty.Package
