import Patchbay.Proofs.Text.Quoted
import Patchbay.Reporter

namespace Patchbay

/-! What warnings leave behind.

A warning is counted, and its line is added to the output of a reporter that writes.  Nothing else about
the reporter changes.
-/

namespace LogEntry

/-- A warning without fields. -/
def warning (message : String) : LogEntry := { level := .warning, message }

theorem namedFields_warning (message : String) : (warning message).namedFields = ∅ := rfl

theorem showText_of_blank {text : String} (blank : ' ' ∈ text.toList) : showText text = Text.quoted text := by
  unfold showText
  rw [if_neg]
  intro bare
  exact absurd (List.all_eq_true.mp bare _ blank) (by decide)

theorem toText_warning {message : String} (blank : ' ' ∈ message.toList) :
    (warning message).toText = "level=warning msg=" ++ Text.quoted message := by
  have filled : (warning message).message ≠ "" := by
    rintro rfl
    cases blank
  have noKeys : Text.sortTexts (∅ : Table Value).keys = [] := by decide +kernel
  have level : showText Level.warning.name = "warning" := by decide +kernel
  have msg : showText (warning message).message = Text.quoted message := showText_of_blank blank
  have joined : "level" ++ "=" ++ "warning" ++ " " ++ "msg" ++ "=" = "level=warning msg=" := by decide
  unfold toText
  dsimp only
  rw [namedFields_warning, noKeys, if_neg filled]
  change String.intercalate " " ["level" ++ "=" ++ showText Level.warning.name,
    "msg" ++ "=" ++ showText (warning message).message] = _
  rw [level, msg, String.intercalate_cons_cons, String.intercalate_singleton, ← joined]
  simp only [String.append_assoc]

theorem toJson?_warning (message : String) :
    (warning message).toJson? = some (.object [("level", .text "warning"), ("msg", .text message)]) := by
  have fields : (((∅ : Table Value).set "msg" (.text message)).set "level" (.text "warning")).entries =
      [("msg", .text message), ("level", .text "warning")] := rfl
  have sorted : ∀ first second : Metadata.Writer,
      [("msg", first), ("level", second)].mergeSort (fun left right => !decide (right.1 < left.1)) =
        [("level", second), ("msg", first)] := by
    intro first second
    have later : "level" < "msg" := by decide
    simp only [List.mergeSort, List.MergeSort.Internal.splitInTwo, List.length_cons, List.length_nil,
      Nat.zero_add, Nat.reduceAdd, Nat.reduceDiv, List.splitAt_eq, List.take_succ_cons, List.take_zero,
      List.drop_succ_cons, List.drop_zero, List.cons_merge_cons, later, decide_true, Bool.not_true,
      Bool.false_eq_true, if_false, List.merge_right, List.nil_merge]
  unfold toJson?
  rw [namedFields_warning]
  dsimp only [warning, Level.name]
  rw [fields, Metadata.ofValue]
  unfold Metadata.sortedMembers Metadata.ofEntries Metadata.ofEntries Metadata.ofEntries
  rw [sorted]
  rfl

/-- The line of a warning. -/
theorem line_warning {message : String} (blank : ' ' ∈ message.toList) (format : LogFormat) :
    (warning message).line format = match format with
      | .text => "level=warning msg=" ++ Text.quoted message ++ "\n"
      | .json => "\x7b\"level\":\"warning\",\"msg\":" ++ Json.quote message ++ "\x7d\n" := by
  cases format with
  | text => exact congrArg (· ++ "\n") (toText_warning blank)
  | json =>
      unfold line
      rw [toJson?_warning]
      have front : "\x7b" ++ (Json.quote "level" ++ ":" ++ Json.quote "warning" ++ "," ++
          (Json.quote "msg" ++ ":")) = "\x7b\"level\":\"warning\",\"msg\":" := by decide +kernel
      have back : "\x7d" ++ "\n" = "\x7d\n" := by decide
      simp only [Json.write, Json.writeMembers, String.intercalate_cons_cons,
        String.intercalate_singleton]
      rw [← front, ← back]
      simp only [String.append_assoc]

end LogEntry

namespace Reporter

variable {reporter : Reporter}

theorem warn_eq (reporter : Reporter) (message : String) : reporter.warn message = { reporter with
    warnings := reporter.warnings + 1
    output := reporter.output ++
      if reporter.isSilent then "" else (LogEntry.warning message).line reporter.format } := by
  unfold warn log shows
  cases reporter.isSilent with
  | true => simp
  | false => rfl

/-- The reporter after some warnings. -/
theorem foldl_warn (reporter : Reporter) (messages : List String) : messages.foldl warn reporter =
    { reporter with
      warnings := reporter.warnings + messages.length
      output := reporter.output ++ if reporter.isSilent then ""
        else String.join (messages.map fun message => (LogEntry.warning message).line reporter.format) } := by
  induction messages generalizing reporter with
  | nil => simp
  | cons message rest ih =>
      rw [List.foldl_cons, ih, warn_eq]
      cases reporter.isSilent with
      | true => simp [Nat.add_assoc, Nat.add_comm 1]
      | false => simp [Nat.add_assoc, Nat.add_comm 1, String.append_assoc, String.join_cons]

end Reporter

end Patchbay
