import DocAudit.Proofs.Tree.ListedNames
import DocAudit.Proofs.Tree.NormalWalk
import DocAudit.Proofs.Tree.Relisted

/-!
What a path finds below a node that another path leads to. The longer path finds what stands there
under its further names, if it finds out at all: a path that is too long is a fault. So looking for a
file and listing the folder that should hold it come to the same answer.
-/

namespace DocAudit

namespace Node

theorem descend_append_parts (node : Node) (front behind : List String) :
    node.descend (front ++ behind) = (node.descend front).bind (·.descend behind) := by
  induction front generalizing node with
  | nil => rfl
  | cons name front induction =>
    cases node with
    | file content => rfl
    | folder entries =>
      rw [List.cons_append, descend, descend, Option.bind_assoc]
      exact congrArg _ (funext induction)

/-- Names as a file system has them at or below a node: single parts of a path, without NUL, and
different from one another in each folder. -/
structure IsNamed (node : Node) : Prop where
  distinct : node.HasDistinctNames
  plain : ∀ place below, node.descend place = some below → ∀ part ∈ place, IsPlainPart part
  withoutNul : ∀ place below, node.descend place = some below →
    ∀ part ∈ place, '\x00' ∉ part.toList

namespace IsNamed

variable {node child : Node} {entries : List (String × Node)} {place : List String}

theorem file (content : ByteArray) : (Node.file content).IsNamed := by
  have top {place : List String} {below : Node}
      (found : (Node.file content).descend place = some below) : place = [] := by
    cases place with
    | nil => rfl
    | cons name rest => cases found
  constructor
  · rw [HasDistinctNames]
    trivial
  · intro place below found
    rw [top found]
    exact List.forall_mem_nil _
  · intro place below found
    rw [top found]
    exact List.forall_mem_nil _

theorem folder (distinct : (entries.map (·.1)).Nodup)
    (each : ∀ entry ∈ entries, IsPlainPart entry.1 ∧ '\x00' ∉ entry.1.toList ∧ entry.2.IsNamed) :
    (Node.folder entries).IsNamed := by
  have inEach {name : String} {rest : List String} {below : Node}
      (found : (Node.folder entries).descend (name :: rest) = some below) :
      ∃ child, (name, child) ∈ entries ∧ child.descend rest = some below := by
    rw [Node.descend, Option.bind_eq_some_iff] at found
    obtain ⟨child, known, found⟩ := found
    exact ⟨child, (lookup_iff_mem distinct).mp known, found⟩
  have distinctEach : EachHasDistinctNames entries := by
    clear inEach distinct
    induction entries with
    | nil => trivial
    | cons entry rest induction =>
      obtain ⟨first, others⟩ := List.forall_mem_cons.mp each
      rw [EachHasDistinctNames]
      exact ⟨first.2.2.distinct, induction others⟩
  constructor
  · rw [HasDistinctNames]
    exact ⟨distinct, distinctEach⟩
  · rintro (_ | ⟨name, rest⟩) below found
    · exact List.forall_mem_nil _
    · obtain ⟨child, member, found⟩ := inEach found
      obtain ⟨isPlain, -, named⟩ := each _ member
      exact List.forall_mem_cons.mpr ⟨isPlain, named.plain rest below found⟩
  · rintro (_ | ⟨name, rest⟩) below found
    · exact List.forall_mem_nil _
    · obtain ⟨child, member, found⟩ := inEach found
      obtain ⟨-, noNul, named⟩ := each _ member
      exact List.forall_mem_cons.mpr ⟨noNul, named.withoutNul rest below found⟩

theorem descend (named : node.IsNamed) (found : node.descend place = some child) :
    child.IsNamed where
  distinct := named.distinct.descend found
  plain inside below reached part member :=
    named.plain (place ++ inside) below (by rw [descend_append_parts, found]; exact reached) part
      (List.mem_append_right place member)
  withoutNul inside below reached part member :=
    named.withoutNul (place ++ inside) below (by rw [descend_append_parts, found]; exact reached)
      part (List.mem_append_right place member)

theorem of_mem_files (named : node.IsNamed) {content : ByteArray}
    (member : (place, content) ∈ node.files) : node.descend place = some (.file content) :=
  descend_of_mem_files node named.distinct member

end IsNamed

end Node

namespace Disk

variable {disk : Disk} {path : FilePath} {node : Node} {behind : List String}
  {result : Option Node}

theorem node?_eq_some_iff :
    disk.node? path = .ok (some node) ↔ ∃ place, disk.lookup path = .found place node := by
  rw [node?]
  cases disk.lookup path with
  | found place node' => simp
  | refused refusal => cases refusal <;> simp
  | unnameable => simp

theorem isPresent_of_node? (found : disk.node? path = .ok result) :
    disk.isPresent path = .ok result.isSome := by
  rw [isPresent, found]
  rfl

/-- A longer path finds what stands below. -/
theorem eq_descend_of_node? (reached : disk.node? path = .ok (some node))
    (undotted : ".." ∉ behind) (withoutNul : ∀ part ∈ behind, '\x00' ∉ part.toList)
    (found : disk.node? (path.extend behind) = .ok result) : result = node.descend behind := by
  obtain ⟨place, isPlace⟩ := node?_eq_some_iff.mp reached
  obtain ⟨nameable, walked, descended⟩ := lookup_found_iff.mp isPlace
  have below : disk.root.descend (place ++ behind) = node.descend behind := by
    rw [Node.descend_append_parts, descended, Option.bind_some]
  have further : disk.walk (path.extend behind) = DocAudit.walk disk.stands place behind := by
    rw [walk] at walked
    rw [walk, absoluteParts_extend, walk_append, walked]
    rfl
  cases result with
  | some child =>
    obtain ⟨place', isPlace'⟩ := node?_eq_some_iff.mp found
    obtain ⟨-, walked', descended'⟩ := lookup_found_iff.mp isPlace'
    rw [further] at walked'
    rw [← below, ← eq_append_of_walk undotted walked', descended']
  | none =>
    rcases isPresent_eq_false_iff.mp (isPresent_of_node? found) with
      nul | ⟨nameable', refusal, refused, notTooLong⟩
    · have clean := nameable.nul_not_mem
      rw [FilePath.nul_mem_toString_iff] at nul clean
      obtain ⟨part, member, nul⟩ := nul
      rcases List.mem_append.mp member with before | inside
      · exact absurd ⟨part, before, nul⟩ clean
      · exact absurd nul (withoutNul part inside)
    · rw [further] at refused
      by_contra present
      have stands : (disk.stands (place ++ behind)).isSome = true := by
        rw [Disk.stands, Node.stands, below, Option.isSome_map]
        exact Option.isSome_iff_ne_none.mpr (Ne.symm present)
      rcases walk_of_isSome disk.stands_folder_of_isSome undotted stands with arrived | tooLong
      · rw [arrived] at refused
        cases refused
      · rw [tooLong] at refused
        cases refused
        exact notTooLong rfl

theorem node?_of_readBytes {content : ByteArray} (read : disk.readBytes path = .ok content) :
    disk.node? path = .ok (some (.file content)) :=
  node?_eq_some_iff.mpr ⟨_, lookup_of_readBytes read⟩

/-- What is read as a text is the content of a file. -/
theorem exists_of_readText {text : List Char} (read : disk.readText path = .ok text) :
    ∃ content decoded, disk.node? path = .ok (some (.file content)) ∧
      Text.decode content = .ok decoded ∧ text = Text.unifyNewlines decoded := by
  obtain ⟨content, isContent, decoded⟩ := exists_of_bind_eq_ok read
  split at decoded
  · next text' isText =>
    cases decoded
    exact ⟨content, text', node?_of_readBytes isContent, isText, rfl⟩
  · cases decoded

end Disk

theorem FilePath.child_joinSlashes {parts : List String} (plain : ∀ part ∈ parts, IsPlainPart part)
    (folder : FilePath) : folder.child (joinSlashes parts) = folder.extend parts := by
  rw [child, ofString_joinSlashes_of_isStep fun part member => (plain part member).isStep]
  exact folder.join_of_relative _ rfl

end DocAudit
