import DocAudit.Proofs.Tree.NormalPath
import DocAudit.Proofs.Tree.Standing
import Mathlib

/-!
Where the normal form of a path leads. A walk that arrives goes back to the folder it came from at
two dots, so the normal form arrives at the same place. Where a walk ends on its way, the normal
form ends there as well, unless two dots would have been read behind something that is no folder.
-/

namespace DocAudit

/-! ## Walks -/

section walk

variable {stands : List String → Option Standing} {place reached : List String}

theorem folder_of_walk_cons {part : String} {rest : List String}
    (walked : walk stands place (part :: rest) = .ok reached) : stands place = some .folder := by
  by_contra noFolder
  rw [walk_cons_of_not_folder noFolder] at walked
  cases walked

theorem walk_above {rest : List String} (walked : walk stands place (".." :: rest) = .ok reached) :
    walk stands place.dropLast rest = .ok reached := by
  rwa [walk_cons_of_folder (folder_of_walk_cons walked), if_pos rfl] at walked

/-- Down and up again leads back. -/
theorem walk_back {name : String} {rest : List String} (down : name ≠ "..")
    (walked : walk stands place (name :: ".." :: rest) = .ok reached) :
    walk stands place rest = .ok reached := by
  rw [walk_cons_of_folder (folder_of_walk_cons walked), if_neg down] at walked
  split at walked
  · cases walked
  · split at walked
    · have above := walk_above walked
      rwa [List.dropLast_concat] at above
    · cases walked

open FilePath (pushPart pushPart_of_ne pushPart_above)

theorem walk_pushPart {absolute : Bool} {done rest : List String} {part : String}
    (top : absolute = true → place = [])
    (walked : walk stands place (done.reverse ++ part :: rest) = .ok reached) :
    walk stands place ((pushPart absolute done part).reverse ++ rest) = .ok reached := by
  have goesOn : walk stands place ((part :: done).reverse ++ rest) = .ok reached := by
    rwa [List.reverse_cons, List.append_assoc, List.singleton_append]
  by_cases down : part = ".."
  · subst down
    cases done with
    | nil =>
      cases absolute with
      | false => exact goesOn
      | true =>
        obtain rfl := top rfl
        exact walk_above walked
    | cons last before =>
      rw [pushPart_above]
      split
      · exact goesOn
      · next name =>
        rw [List.reverse_cons, List.append_assoc, List.singleton_append,
          walk_append_eq_ok_iff] at walked
        obtain ⟨further, walked, back⟩ := walked
        exact walk_append_eq_ok_iff.mpr ⟨further, walked, walk_back name back⟩
  · rwa [pushPart_of_ne down]

theorem walk_foldl_pushPart {absolute : Bool} (done : List String) {parts : List String}
    (top : absolute = true → place = [])
    (walked : walk stands place (done.reverse ++ parts) = .ok reached) :
    walk stands place (parts.foldl (pushPart absolute) done).reverse = .ok reached := by
  induction parts generalizing done with
  | nil => rwa [List.append_nil] at walked
  | cons part rest induction => exact induction _ (walk_pushPart top walked)

end walk

/-! ## Names -/

namespace FilePath

variable {path shorter : FilePath}

theorem toList_joinSlashes_cons (part : String) (parts : List String) :
    (joinSlashes (part :: parts)).toList =
      part.toList ++ if parts = [] then [] else '/' :: (joinSlashes parts).toList := by
  cases parts with
  | nil => simp [joinSlashes]
  | cons next rest => simp [joinSlashes, String.intercalate_cons_cons]

theorem joinSlashes_sublist {parts fewer : List String} (sublist : fewer.Sublist parts) :
    (joinSlashes fewer).toList.Sublist (joinSlashes parts).toList := by
  induction sublist with
  | slnil => exact List.Sublist.refl _
  | @cons fewer parts part sublist induction =>
    rw [toList_joinSlashes_cons]
    split
    · next none =>
      subst none
      exact induction.trans (List.nil_sublist _)
    · exact (induction.trans (List.sublist_cons_self '/' _)).trans
        (List.sublist_append_right part.toList _)
  | @cons_cons fewer parts part sublist induction =>
    rw [toList_joinSlashes_cons, toList_joinSlashes_cons]
    refine List.Sublist.append_left ?_ part.toList
    split
    · exact List.nil_sublist _
    · next nonempty =>
      have partsNonempty : parts ≠ [] := by
        rintro rfl
        exact nonempty (List.sublist_nil.mp sublist)
      rw [if_neg partsNonempty]
      exact induction.cons_cons '/'

theorem mem_joinSlashes_iff {c : Char} (noSlash : c ≠ '/') {parts : List String} :
    c ∈ (joinSlashes parts).toList ↔ ∃ part ∈ parts, c ∈ part.toList := by
  induction parts with
  | nil => simp [joinSlashes]
  | cons part rest induction =>
    rw [toList_joinSlashes_cons, List.mem_append, List.exists_mem_cons_iff, ← induction]
    cases rest with
    | nil => simp [joinSlashes]
    | cons next further => simp [noSlash]

theorem nul_mem_toString_iff :
    '\x00' ∈ path.toString.toList ↔ ∃ part ∈ path.parts, '\x00' ∈ part.toList := by
  rw [← mem_joinSlashes_iff (by decide), toString]
  split
  · next empty =>
    rw [empty.2]
    exact iff_of_false (by decide) (by decide)
  · rw [String.toList_append, String.toList_ofList, List.mem_append]
    exact or_iff_right fun member => absurd (List.eq_of_mem_replicate member) (by decide)

theorem IsNameable.nul_not_mem (nameable : path.IsNameable) :
    '\x00' ∉ path.toString.toList := by
  have withoutNul := nameable.withoutNul
  rwa [String.contains_char_eq, decide_eq_false_iff_not] at withoutNul

/-- A path stays nameable when parts are taken out. -/
theorem IsNameable.of_sublist (nameable : path.IsNameable)
    (sameSlashes : shorter.slashes = path.slashes) (sublist : shorter.parts.Sublist path.parts) :
    shorter.IsNameable := by
  have withoutNul := nameable.nul_not_mem
  have fits := nameable.fits
  rw [nul_mem_toString_iff] at withoutNul
  constructor
  · rw [String.contains_char_eq, decide_eq_false_iff_not, nul_mem_toString_iff]
    rintro ⟨part, member, nul⟩
    exact withoutNul ⟨part, sublist.subset member, nul⟩
  · rw [toString]
    split
    · decide
    · next named =>
      have whole : path.toString =
          String.ofList (List.replicate path.slashes '/') ++ joinSlashes path.parts := by
        rw [toString, if_neg]
        rintro ⟨relative, empty⟩
        rw [empty] at sublist
        exact named ⟨sameSlashes.trans relative, List.sublist_nil.mp sublist⟩
      have shorterText := String.utf8Len_le_of_sublist (joinSlashes_sublist sublist)
      rw [← String.utf8ByteSize_ofList, ← String.utf8ByteSize_ofList, String.ofList_toList,
        String.ofList_toList] at shorterText
      rw [whole, String.utf8ByteSize_append] at fits
      rw [String.utf8ByteSize_append, sameSlashes]
      omega

/-! ## Longer paths -/

theorem IsNameable.of_extend {behind : List String} (nameable : (path.extend behind).IsNameable) :
    path.IsNameable :=
  nameable.of_sublist rfl (List.sublist_append_left path.parts behind)

theorem extend_nil (path : FilePath) : path.extend [] = path := by
  rw [extend, List.append_nil]

theorem extend_extend (path : FilePath) (front behind : List String) :
    (path.extend front).extend behind = path.extend (front ++ behind) := by
  rw [extend, extend, extend, List.append_assoc]

theorem join_extend (folder path : FilePath) (behind : List String) :
    folder.join (path.extend behind) = (folder.join path).extend behind := by
  rcases Nat.eq_zero_or_pos path.slashes with relative | absolute
  · rw [folder.join_of_relative path relative, folder.join_of_relative (path.extend behind) relative,
      extend_extend]
    rfl
  · rw [folder.join_of_absolute path absolute, folder.join_of_absolute (path.extend behind) absolute]

/-- Parts behind the last two dots are all kept. -/
theorem normal_extend (path : FilePath) {behind : List String} (undotted : ".." ∉ behind) :
    (path.extend behind).normal = path.normal.extend behind := by
  rw [normal, normal, extend, extend]
  simp only [List.foldl_append, foldl_pushPart_undotted undotted, List.reverse_append,
    List.reverse_reverse]
  rfl

theorem slashes_join_normal (folder path : FilePath) :
    (folder.join path.normal).slashes = (folder.join path).slashes := by
  rw [join, join, isAbsolute, isAbsolute, normal]
  split <;> rfl

theorem join_normal_sublist (folder path : FilePath) :
    (folder.join path.normal).parts.Sublist (folder.join path).parts := by
  rcases Nat.eq_zero_or_pos path.slashes with relative | absolute
  · rw [folder.join_of_relative path relative, folder.join_of_relative path.normal relative]
    exact path.normal_parts_sublist.append_left folder.parts
  · rw [folder.join_of_absolute path absolute, folder.join_of_absolute path.normal absolute]
    exact path.normal_parts_sublist

end FilePath

/-! ## Presence -/

namespace Disk

variable {disk : Disk} {root path front : FilePath} {place behind : List String}

theorem isPresent_eq_false_iff :
    disk.isPresent path = .ok false ↔
      '\x00' ∈ path.toString.toList ∨
        path.IsNameable ∧ ∃ refusal, disk.walk path = .error refusal ∧ refusal ≠ .nameTooLong := by
  rw [← decide_eq_true_iff (p := '\x00' ∈ path.toString.toList), ← String.contains_char_eq]
  constructor
  · intro absent
    rw [or_iff_not_imp_left]
    intro withoutNul
    have fits : path.toString.utf8ByteSize < pathLimit := by
      by_contra long
      rw [isPresent, node?, lookup, if_neg withoutNul, if_pos (Nat.not_lt.mp long)] at absent
      cases absent
    have nameable : path.IsNameable := ⟨eq_false_of_ne_true withoutNul, fits⟩
    exact ⟨nameable, exists_of_isPresent_eq_false absent nameable⟩
  · rintro (nul | ⟨nameable, refusal, refused, notTooLong⟩)
    · rw [isPresent, node?, lookup, if_pos nul]
      rfl
    · rw [isPresent, node?, (lookup_refused_of_nameable nameable).mpr refused]
      cases refusal <;> first | rfl | exact absurd rfl notTooLong

theorem walk_join_normal (walked : disk.walk (root.join path) = .ok place) :
    disk.walk (root.join path.normal) = .ok place := by
  rcases Nat.eq_zero_or_pos path.slashes with relative | absolute
  · rw [root.join_of_relative path relative, walk, absoluteParts_extend,
      walk_append_eq_ok_iff] at walked
    obtain ⟨base, started, walked⟩ := walked
    rw [root.join_of_relative path.normal relative, walk, absoluteParts_extend,
      walk_append_eq_ok_iff]
    have noTop : path.isAbsolute = true → base = [] := fun absolute =>
      absurd relative (Nat.pos_iff_ne_zero.mp (of_decide_eq_true absolute))
    exact ⟨base, started, walk_foldl_pushPart [] noTop walked⟩
  · rw [root.join_of_absolute path absolute, walk, disk.absoluteParts_of_absolute path absolute]
      at walked
    rw [root.join_of_absolute path.normal absolute, walk,
      disk.absoluteParts_of_absolute path.normal absolute]
    exact walk_foldl_pushPart [] (fun _ => rfl) walked

/-- What is present is present under the normal form of its path. -/
theorem isPresent_join_normal (present : disk.isPresent (root.join path) = .ok true) :
    disk.isPresent (root.join path.normal) = .ok true := by
  obtain ⟨nameable, place, walked⟩ := isPresent_iff.mp present
  exact isPresent_iff.mpr
    ⟨nameable.of_sublist (root.slashes_join_normal path) (root.join_normal_sublist path), place,
      walk_join_normal walked⟩

/-- What is absent is absent under the normal form, if its path leads somewhere as far as two dots
stand in it. -/
theorem isPresent_join_normal_extend (walked : disk.walk (root.join front) = .ok place)
    (withoutNul : '\x00' ∉ (root.join front).toString.toList) (undotted : ".." ∉ behind)
    (absent : disk.isPresent (root.join (front.extend behind)) = .ok false) :
    disk.isPresent (root.join (front.extend behind).normal) = .ok false := by
  rw [isPresent_eq_false_iff] at absent ⊢
  rcases absent with nul | ⟨nameable, refusal, refused, notTooLong⟩
  · left
    rw [FilePath.nul_mem_toString_iff] at nul withoutNul ⊢
    obtain ⟨part, member, nul⟩ := nul
    rw [FilePath.join_extend, FilePath.extend, List.mem_append] at member
    rw [FilePath.normal_extend _ undotted, FilePath.join_extend]
    refine ⟨part, List.mem_append_right _ (member.resolve_left fun before => ?_), nul⟩
    exact withoutNul ⟨part, before, nul⟩
  · right
    refine ⟨nameable.of_sublist (root.slashes_join_normal _) (root.join_normal_sublist _),
      refusal, ?_, notTooLong⟩
    rw [FilePath.join_extend, walk, absoluteParts_extend, walk_append] at refused
    rw [FilePath.normal_extend _ undotted, FilePath.join_extend, walk, absoluteParts_extend,
      walk_append]
    rw [walk] at walked
    have normalWalked := walk_join_normal walked
    rw [walk] at normalWalked
    rw [walked] at refused
    rw [normalWalked]
    exact refused

end Disk

end DocAudit
