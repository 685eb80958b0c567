import DocAudit.Proofs.Fixing.Session
import DocAudit.Proofs.Text.Lines
import Mathlib

/-!
What becomes of the ends of lines when a file is fixed. A file that needs no fix stays as it is. One
that does is written anew with a line feed behind each line, so its line ends are kept exactly if the
lines that stay had ended in line feeds.
-/

namespace DocAudit

open Text DocAudit.Fix

/-- Each line that stays and had a line end still has the same one. -/
def KeepsLineEnds (before after : List Char) : Prop :=
  ∀ (index : Nat) (line fixed : EndedLine), (endedLines before)[index]? = some line →
    (endedLines after)[index]? = some fixed → line.ending ≠ .text → fixed.ending = line.ending

/-- How the new text of a file relates to the one before. The lines that stay are the first ones. -/
structure WrittenAnew (before after : List Char) : Prop where
  fixed : after = fixText (unifyNewlines before)
  whole : (endedLines before).flatMap EndedLine.letters = before
  lines : (endedLines before).map EndedLine.line <+: lines (unifyNewlines before)
  ended : endedLines after = (fixedLines (unifyNewlines before)).map fun line => ⟨line, .lineFeed⟩
  keeps : KeepsLineEnds before after ↔
    ∀ line ∈ (endedLines before).take (endedLines after).length,
      line.ending = .lineFeed ∨ line.ending = .text
  unchanged : ∀ (index : Nat) (line fixed : EndedLine), (endedLines before)[index]? = some line →
    (endedLines after)[index]? = some fixed → fixed.line = line.line →
      (fixed.letters = line.letters ↔ line.ending = .lineFeed)

theorem endedLines_fixText {text : List Char} (unified : '\r' ∉ text) :
    endedLines (fixText text) = (fixedLines text).map fun line => ⟨line, .lineFeed⟩ := by
  have returnless : ∀ line ∈ fixedLines text, '\r' ∉ line := by
    intro line member isReturn
    apply not_mem_fixText_of_unified unified
    rw [fixText_eq]
    exact List.mem_append_left _ (mem_unlines_of_mem member isReturn)
  rw [fixText_eq, endedLines_unlines (areLines_fixedLines text) returnless]

theorem writtenAnew_fixText (text : List Char) :
    WrittenAnew text (fixText (unifyNewlines text)) := by
  have ended := endedLines_fixText (not_mem_unifyNewlines text)
  have lineFeeds : ∀ fixed ∈ endedLines (fixText (unifyNewlines text)),
      fixed.ending = .lineFeed := by
    rw [ended, List.forall_mem_map]
    exact fun _ _ => rfl
  refine ⟨rfl, flatMap_letters_endedLines text, map_line_endedLines_prefix text, ended, ?_, ?_⟩
  · constructor
    · intro keeps line member
      obtain ⟨index, place⟩ := List.getElem?_of_mem member
      rw [List.getElem?_take, Option.ite_none_right_eq_some] at place
      have stays := List.getElem?_eq_getElem place.1
      have lineFeed := lineFeeds _ (List.mem_of_getElem? stays)
      rw [or_iff_not_imp_right]
      intro hasEnd
      rw [← keeps index line _ place.2 stays hasEnd, lineFeed]
    · intro lineFeedsBefore index line fixed place stays hasEnd
      have kept : line ∈ (endedLines text).take (endedLines (fixText (unifyNewlines text))).length := by
        apply List.mem_of_getElem? (i := index)
        rw [List.getElem?_take, if_pos (List.getElem?_eq_some_iff.mp stays).1, place]
      rw [(lineFeedsBefore line kept).resolve_right hasEnd,
        lineFeeds fixed (List.mem_of_getElem? stays)]
  · intro index line fixed place stays same
    have lineFeed := lineFeeds fixed (List.mem_of_getElem? stays)
    rw [EndedLine.letters, EndedLine.letters, same, List.append_cancel_left_eq, lineFeed]
    cases line.ending <;> decide

section file

variable {session : FixSession} {path : FilePath} {content : ByteArray} {text : List Char}

theorem textOf_of_decode (decoded : decode content = .ok text) :
    textOf content = .ok (unifyNewlines text) := by
  rw [textOf, decoded]

theorem fixFile_of_stable (bytes : session.disk.readBytes path = .ok content)
    (decoded : decode content = .ok text)
    (stable : fixText (unifyNewlines text) = unifyNewlines text) :
    session.fixFile path = (session, .ok false) := by
  have readText : session.disk.readText path = .ok (unifyNewlines text) := by
    rw [readText_eq, bytes]
    exact textOf_of_decode decoded
  rw [FixSession.fixFile, readText]
  exact if_pos stable

theorem fixFile_of_unstable (distinct : session.disk.root.HasDistinctNames)
    (bytes : session.disk.readBytes path = .ok content) (decoded : decode content = .ok text)
    (needs : fixText (unifyNewlines text) ≠ unifyNewlines text) :
    session.fixFile path = (session.record ⟨path, session.afterFix path⟩, .ok true) := by
  have read := textOf_of_decode decoded
  have readText : session.disk.readText path = .ok (unifyNewlines text) := by
    rw [readText_eq, bytes]
    exact read
  rw [FixSession.fixFile, readText]
  simp only [if_neg needs, FixSession.store_fixText distinct bytes read]

theorem readBytes_afterFix (writes : session.dryRun = false)
    (bytes : session.disk.readBytes path = .ok content) (decoded : decode content = .ok text) :
    (session.afterFix path).readBytes path = .ok (encode (fixText (unifyNewlines text))) := by
  rw [FixSession.afterFix, writes, if_neg Bool.false_ne_true, Disk.fixedAt,
    Disk.readBytes_overwrite, bytes, Except.map, if_pos (List.mem_singleton.mpr rfl),
    fixContent_of_textOf (textOf_of_decode decoded)]

/-- A file that needs a fix is written anew with line feeds alone, and one that needs none is left as
it is. -/
theorem fixFile_writes_line_feeds (distinct : session.disk.root.HasDistinctNames)
    (writes : session.dryRun = false) (bytes : session.disk.readBytes path = .ok content)
    (decoded : decode content = .ok text) :
    (fixText (unifyNewlines text) = unifyNewlines text →
        session.fixFile path = (session, .ok false)) ∧
      (fixText (unifyNewlines text) ≠ unifyNewlines text →
        (session.fixFile path).2 = .ok true ∧
          ∃ after, (session.fixFile path).1.disk.readBytes path = .ok (encode after) ∧
            WrittenAnew text after) := by
  refine ⟨fixFile_of_stable bytes decoded, fun needs => ?_⟩
  rw [fixFile_of_unstable distinct bytes decoded needs]
  exact ⟨rfl, _, readBytes_afterFix writes bytes decoded, writtenAnew_fixText text⟩

end file

/-- A disk with one file. -/
def diskHolding (text : List Char) : Disk where
  root := .folder [("a.md", .file (encode text))]
  workingFolder := []

theorem hasDistinctNames_diskHolding (text : List Char) :
    (diskHolding text).root.HasDistinctNames := by
  simp [Node.HasDistinctNames, Node.EachHasDistinctNames, diskHolding]

theorem readBytes_diskHolding (text : List Char) :
    (diskHolding text).readBytes (.fromTop ["a.md"]) = .ok (encode text) := by
  cbv

/-- The line that needed a fix ended in a line feed and still does, and the other one does not. -/
theorem fixFile_writes_line_feeds_mixed :
    let text := "#A\nb\r\n".toList
    let session : FixSession := { disk := diskHolding text, dryRun := false }
    let path : FilePath := .fromTop ["a.md"]
    session.disk.root.HasDistinctNames ∧ session.disk.readBytes path = .ok (encode text) ∧
      decode (encode text) = .ok text ∧ fixText (unifyNewlines text) ≠ unifyNewlines text ∧
      (session.fixFile path).2 = .ok true ∧
      ∃ after, (session.fixFile path).1.disk.readBytes path = .ok (encode after) ∧
        WrittenAnew text after := by
  intro text session path
  have distinct := hasDistinctNames_diskHolding text
  have bytes := readBytes_diskHolding text
  have decoded := decode_encode text
  have needs : fixText (unifyNewlines text) ≠ unifyNewlines text := by decide +kernel
  exact ⟨distinct, bytes, decoded, needs,
    (@fixFile_writes_line_feeds session path _ text distinct rfl bytes decoded).2 needs⟩

/-- A blank too many on one line costs all lines their carriage returns. -/
theorem fixFile_drops_carriage_returns :
    let text := "a \r\nb\r\n".toList
    let fixed := "a\nb\n".toList
    let session : FixSession := { disk := diskHolding text, dryRun := false }
    let path : FilePath := .fromTop ["a.md"]
    (session.fixFile path).2 = .ok true ∧
      (session.fixFile path).1.disk.readBytes path = .ok (encode fixed) ∧
      ¬ KeepsLineEnds text fixed := by
  intro text fixed session path
  have isFixed : fixText (unifyNewlines text) = fixed := by decide +kernel
  have needs : fixText (unifyNewlines text) ≠ unifyNewlines text := by decide +kernel
  have bytes : session.disk.readBytes path = .ok (encode text) := readBytes_diskHolding text
  have decoded := decode_encode text
  rw [fixFile_of_unstable (hasDistinctNames_diskHolding text) bytes decoded needs]
  refine ⟨rfl, isFixed ▸ readBytes_afterFix rfl bytes decoded, fun keeps => ?_⟩
  have second := keeps 1 ⟨['b'], .both⟩ ⟨['b'], .lineFeed⟩ (by decide +kernel) (by decide +kernel)
    (by decide)
  cases second

end DocAudit
