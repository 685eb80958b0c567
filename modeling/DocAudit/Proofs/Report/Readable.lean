import DocAudit.Proofs.Json.ReadBack
import DocAudit.Report.Console
import DocAudit.Report.Json

/-!
Reports that can be written and read again. Where the messages of findings are texts, every message
for the console can be written, and the JSON text reads back as the table that it was made of.
-/

namespace DocAudit

/-- Findings whose messages are texts, as all messages are that no configuration gives. -/
def HaveTexts (results : List RuleResult) : Prop :=
  ∀ result ∈ results, ∀ issue ∈ result.issues, ∃ message, issue.message = .text message

/-! ## Console -/

def AreWritable (messages : List (Except Fault String)) : Prop :=
  ∀ message ∈ messages, ∃ text, message = .ok text

theorem areWritable_append {front rest : List (Except Fault String)} (first : AreWritable front)
    (second : AreWritable rest) : AreWritable (front ++ rest) :=
  List.forall_mem_append.mpr ⟨first, second⟩

theorem areWritable_flatMap {α : Type} {items : List α}
    {messages : α → List (Except Fault String)}
    (each : ∀ item ∈ items, AreWritable (messages item)) :
    AreWritable (items.flatMap messages) := by
  intro message member
  obtain ⟨item, among, member⟩ := List.mem_flatMap.mp member
  exact each item among message member

theorem areWritable_map_ok (texts : List String) : AreWritable (texts.map .ok) := by
  intro message member
  obtain ⟨text, -, rfl⟩ := List.mem_map.mp member
  exact ⟨text, rfl⟩

theorem areWritable_ite {condition : Prop} [Decidable condition]
    {first second : List (Except Fault String)} (either : AreWritable first)
    (other : AreWritable second) : AreWritable (if condition then first else second) := by
  split
  · exact either
  · exact other

theorem Issue.areWritable_messages (issue : Issue) (verbose : Bool)
    (hasText : ∃ message, issue.message = .text message) :
    AreWritable (issue.messages verbose) := by
  obtain ⟨message, isText⟩ := hasText
  intro shown member
  rw [messages, List.mem_cons] at member
  rcases member with rfl | member
  · rw [findingMessage, isText]
    exact ⟨_, rfl⟩
  · split at member
    · split at member
      · exact ⟨_, List.mem_singleton.mp member⟩
      · cases member
    · cases member

theorem RuleResult.areWritable_messages (result : RuleResult) (verbose : Bool)
    (haveTexts : ∀ issue ∈ result.issues, ∃ message, issue.message = .text message) :
    AreWritable (result.messages verbose) := by
  have preview : ∀ issue ∈ (if verbose then result.issues else result.issues.take previewLimit),
      issue ∈ result.issues := by
    intro issue member
    split at member
    · exact member
    · exact List.mem_of_mem_take member
  refine areWritable_ite (areWritable_ite (areWritable_map_ok [_]) (areWritable_map_ok [])) ?_
  refine areWritable_append (areWritable_append (areWritable_map_ok [_]) ?_)
    (areWritable_ite (areWritable_map_ok [_]) (areWritable_map_ok []))
  exact areWritable_flatMap fun issue member =>
    issue.areWritable_messages verbose (haveTexts issue (preview issue member))

theorem Report.areWritable_messages (report : Report) (verbose : Bool)
    (haveTexts : HaveTexts report.results) : AreWritable (report.messages verbose) :=
  areWritable_append (areWritable_map_ok _) <| areWritable_flatMap fun result member =>
    result.areWritable_messages verbose (haveTexts result member)

theorem areWritable_structureMessages {results : List RuleResult} (haveTexts : HaveTexts results) :
    AreWritable (structureMessages results) :=
  areWritable_append
    (areWritable_append (areWritable_map_ok [_]) <| areWritable_flatMap fun result member =>
      result.areWritable_messages true (haveTexts result member))
    (areWritable_map_ok [_, _])

/-! ## JSON -/

theorem isPlain_optionalEntry {α : Type} {key : String} {toValue : α → Value}
    (plain : ∀ content, Json.IsPlain (toValue content)) (given : Option α) :
    ∀ entry ∈ optionalEntry key toValue given, Json.IsPlain entry.2 := by
  intro entry member
  cases given with
  | none => cases member
  | some content =>
    rw [List.mem_singleton.mp member]
    exact plain content

theorem Issue.isPlain_toValue (issue : Issue) (hasText : ∃ message, issue.message = .text message) :
    Json.IsPlain issue.toValue := by
  obtain ⟨message, isText⟩ := hasText
  rw [toValue, isText]
  refine .table _ ?_ ?_
  · cases issue.line <;> cases issue.suggestion <;> cases issue.severity <;>
      simp [optionalEntry, Entries.keys]
  · simp only [List.forall_mem_append, List.forall_mem_singleton]
    exact ⟨⟨⟨⟨.text _, isPlain_optionalEntry (fun _ => .int _) _⟩, .text _⟩,
      isPlain_optionalEntry (fun _ => .text _) _⟩, isPlain_optionalEntry (fun _ => .text _) _⟩

theorem RuleResult.isPlain_toValue (result : RuleResult)
    (haveTexts : ∀ issue ∈ result.issues, ∃ message, issue.message = .text message) :
    Json.IsPlain result.toValue := by
  refine .table _ (by simp [Entries.keys]) ?_
  simp only [List.forall_mem_cons, List.not_mem_nil, false_implies, implies_true, and_true]
  refine ⟨.text _, .text _, .list _ ?_, .bool _⟩
  intro item member
  obtain ⟨issue, among, rfl⟩ := List.mem_map.mp member
  exact issue.isPlain_toValue (haveTexts issue among)

theorem Report.isPlain_toValue (report : Report) (haveTexts : HaveTexts report.results) :
    Json.IsPlain report.toValue := by
  refine .table _ (by simp [Entries.keys]) ?_
  simp only [List.forall_mem_cons, List.not_mem_nil, false_implies, implies_true, and_true]
  refine ⟨.int _, .list _ ?_, .bool _, .table _ (by simp [Entries.keys]) ?_⟩
  · intro item member
    obtain ⟨result, among, rfl⟩ := List.mem_map.mp member
    exact result.isPlain_toValue (haveTexts result among)
  · simp only [List.forall_mem_cons, List.not_mem_nil, false_implies, implies_true, and_true]
    exact ⟨.int _, .int _, .int _⟩

theorem Report.parse_json (report : Report) (haveTexts : HaveTexts report.results) :
    Json.parse report.json.toList = .ok report.toValue :=
  Json.parse_text (report.isPlain_toValue haveTexts) _

end DocAudit
