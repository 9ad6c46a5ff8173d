import Patchbay.Graph.Listing
import Patchbay.Proofs.Program.OneLine

namespace Patchbay

/-! Text archives and what reads them.

An archive is a comment and a sequence of files.  A file begins with a marker line, which holds its name
between hyphens, and goes on up to the next one.  So a text comes back out of an archive as it was put in
when it ends with a line end and none of its lines is a marker.
-/

/-- What a reader finds in a text archive. -/
structure Archive where
  comment : String
  files : List (String × String)
deriving DecidableEq, Repr

namespace Text

/-- What stands between the line ends of a text. -/
def lines (text : String) : List (List Char) := text.toList.splitOn '\n'

def EndsLine (text : String) : Prop := text.toList.getLast? = some '\n'

end Text

open Text (EndsLine OneLine lines)

namespace Archive

/-- A line of the form that begins a file. -/
def IsMarker (line : List Char) : Prop := ∃ name, line = ['-', '-', ' '] ++ name ++ [' ', '-', '-']

/-- What can stand in an archive as a comment or as a file. -/
structure IsContent (text : String) : Prop where
  ended : text = "" ∨ EndsLine text
  clear : ∀ line ∈ lines text, ¬ IsMarker line

/-- Whether a name comes back as it is from a marker line. -/
structure IsFileName (name : String) : Prop where
  given : name ≠ ""
  trimmed : Text.trim name = name
  oneLine : OneLine name

/-- What reads archives: content in front of the first marker line is a comment, and a marker line begins
a file with the content up to the next one. -/
structure Reads (parse : String → Archive) : Prop where
  comment {text : String} : IsContent text → parse text = ⟨text, []⟩
  file {text name : String} (rest : String) : IsContent text → IsFileName name →
    parse (text ++ ("-- " ++ name ++ " --\n") ++ rest) =
      ⟨text, (name, (parse rest).comment) :: (parse rest).files⟩

/-! ## Unmarked texts -/

theorem head_splitOn_isPrefix (text : List Char) : ∀ line ∈ (text.splitOn '\n').head?, line <+: text := by
  induction text with
  | nil => simp
  | cons c rest ih =>
      intro line first
      rw [List.splitOn_cons_eq_if_modifyHead] at first
      split at first
      · cases first
        exact List.nil_prefix
      · rw [List.head?_modifyHead] at first
        obtain ⟨own, given, rfl⟩ := Option.map_eq_some_iff.mp first
        exact (List.prefix_cons_inj c).mpr (ih own given)

/-- Nothing that is closed against marks starts with two hyphens. -/
theorem not_isPrefix_of_closed {text line : List Char} (closed : Text.opensMark text = false)
    (inFront : line <+: text) : ¬ ['-', '-'] <+: line := by
  intro marked
  obtain ⟨rest, rfl⟩ := marked.trans inFront
  cases closed

theorem not_isPrefix_of_keepsUnmarked {text : List Char} (keeps : Text.keepsUnmarked text = true) :
    ∀ line ∈ (text.splitOn '\n').tail, ¬ ['-', '-'] <+: line := by
  induction text with
  | nil => simp
  | cons c rest ih =>
      simp only [Text.keepsUnmarked, Bool.and_eq_true, Bool.or_eq_true, decide_eq_true_eq,
        Bool.not_eq_true'] at keeps
      obtain ⟨closed, keeps⟩ := keeps
      intro line later
      rw [List.splitOn_cons_eq_if_modifyHead] at later
      split at later
      · next feed =>
        have closed := closed.resolve_left fun apart => apart (eq_of_beq feed)
        obtain ⟨first, others, split⟩ := List.exists_cons_of_ne_nil (List.splitOn_ne_nil '\n' rest)
        rw [List.tail_cons, split] at later
        rcases List.mem_cons.mp later with rfl | later
        · exact not_isPrefix_of_closed closed (head_splitOn_isPrefix rest line (by rw [split]; rfl))
        · exact ih keeps line (by rwa [split])
      · rw [List.tail_modifyHead] at later
        exact ih keeps line later

/-- No line of an unmarked text is a marker. -/
theorem not_isMarker_of_isUnmarked {text : String} (unmarked : Text.isUnmarked text = true) :
    ∀ line ∈ lines text, ¬ IsMarker line := by
  rw [Text.isUnmarked, Bool.and_eq_true, Bool.not_eq_true'] at unmarked
  intro line member isMarker
  have marked : ['-', '-'] <+: line := by
    obtain ⟨name, rfl⟩ := isMarker
    exact ⟨' ' :: name ++ [' ', '-', '-'], by simp⟩
  obtain ⟨first, others, split⟩ := List.exists_cons_of_ne_nil (List.splitOn_ne_nil '\n' text.toList)
  rw [lines, split] at member
  rcases List.mem_cons.mp member with rfl | later
  · exact not_isPrefix_of_closed unmarked.1 (head_splitOn_isPrefix _ line (by rw [split]; rfl)) marked
  · exact not_isPrefix_of_keepsUnmarked unmarked.2 line (by rwa [split]) marked

theorem isContent_of_isUnmarked {text : String} (ended : EndsLine text)
    (unmarked : Text.isUnmarked text = true) : IsContent text :=
  ⟨.inr ended, not_isMarker_of_isUnmarked unmarked⟩

/-! ## Lines -/

theorem endLines_eq_intercalate {texts : List String} (given : texts ≠ []) :
    Graph.endLines texts = String.intercalate "\n" texts ++ "\n" := by
  induction texts with
  | nil => exact absurd rfl given
  | cons text rest ih =>
      cases rest with
      | nil => simp [Graph.endLines]
      | cons next rest =>
          have later := ih (List.cons_ne_nil _ _)
          unfold Graph.endLines at later ⊢
          rw [List.map_cons, String.join_cons, later, String.intercalate_cons_cons]
          simp only [String.append_assoc]

theorem endLines_lines (text : String) : Graph.endLines ((lines text).map String.ofList) = text ++ "\n" := by
  have split : lines text ≠ [] := List.splitOn_ne_nil _ _
  rw [endLines_eq_intercalate (by simpa using split)]
  congr 1
  apply String.toList_inj.mp
  rw [String.toList_intercalate, List.map_map]
  have same : String.toList ∘ String.ofList = id := funext fun _ => String.toList_ofList
  rw [same, List.map_id]
  exact List.intercalate_splitOn '\n'

/-- A text that ends with a line end is something in front of it. -/
theorem exists_line_end {text : String} (ended : EndsLine text) : ∃ front, text = front ++ "\n" := by
  obtain ⟨front, same⟩ := List.getLast?_eq_some_iff.mp ended
  exact ⟨String.ofList front, String.toList_inj.mp (by simp [same])⟩

/-! ## A reader -/

/-- The name in a marker line, which may have blanks around it. -/
def fileName? : List Char → Option String
  | '-' :: '-' :: ' ' :: rest =>
      match rest.reverse with
      | '-' :: '-' :: ' ' :: name =>
          let name := Text.trim (String.ofList name.reverse)
          if name = "" then none else some name
      | _ => none
  | _ => none

/-- An archive with one more line in front of it. -/
def addLine (line : List Char) (archive : Archive) : Archive :=
  match fileName? line with
  | some name => ⟨"", (name, archive.comment) :: archive.files⟩
  | none => { archive with comment := String.ofList line ++ "\n" ++ archive.comment }

/-- Reads an archive line by line.  A text that ends without a line end is read as if it had one. -/
def read (text : String) : Archive :=
  let lines := lines text
  (if lines.getLast? = some [] then lines.dropLast else lines).foldr addLine ⟨"", []⟩

theorem isMarker_of_fileName? {line : List Char} {name : String} (named : fileName? line = some name) :
    IsMarker line := by
  unfold fileName? at named
  split at named
  · next rest =>
    split at named
    · next name reversed =>
      refine ⟨name.reverse, ?_⟩
      rw [← List.reverse_inj] at reversed
      simp [List.reverse_reverse] at reversed
      simp [reversed]
    · cases named
  · cases named

theorem fileName?_marker {name : String} (isName : IsFileName name) :
    fileName? (['-', '-', ' '] ++ name.toList ++ [' ', '-', '-']) = some name := by
  simp [fileName?, isName.trimmed, isName.given]

/-- Lines in front of a text are read before it. -/
theorem read_append (front rest : String) :
    read (front ++ "\n" ++ rest) = (lines front).foldr addLine (read rest) := by
  have split : lines (front ++ "\n" ++ rest) = lines front ++ lines rest := by
    unfold lines
    rw [String.toList_append, String.toList_append, List.append_assoc]
    exact List.splitOn_append_cons_self _ _
  have more : lines rest ≠ [] := List.splitOn_ne_nil _ _
  unfold read
  dsimp only
  rw [split, List.getLast?_append_of_ne_nil _ more]
  split
  · rw [List.dropLast_append_of_ne_nil more, List.foldr_append]
  · rw [List.foldr_append]

/-- Lines that are no markers end up in the comment. -/
theorem foldr_addLine {content : List (List Char)} (clear : ∀ line ∈ content, ¬ IsMarker line)
    (archive : Archive) : content.foldr addLine archive =
      { archive with comment := Graph.endLines (content.map String.ofList) ++ archive.comment } := by
  induction content with
  | nil => simp [Graph.endLines]
  | cons line rest ih =>
      obtain ⟨first, later⟩ := List.forall_mem_cons.mp clear
      rw [List.foldr_cons, ih later, addLine]
      cases named : fileName? line with
      | some name => exact absurd (isMarker_of_fileName? named) first
      | none => simp [Graph.endLines, String.append_assoc]

/-- Content in front of a text is read as it is. -/
theorem read_content {text : String} (content : IsContent text) (rest : String) :
    read (text ++ rest) = { read rest with comment := text ++ (read rest).comment } := by
  rcases content.ended with rfl | ended
  · simp
  · obtain ⟨front, rfl⟩ := exists_line_end ended
    have inside : lines (front ++ "\n") = lines front ++ [[]] := by
      unfold lines
      rw [String.toList_append]
      exact List.splitOn_append_cons_self _ []
    have clear : ∀ line ∈ lines front, ¬ IsMarker line := fun line member =>
      content.clear line (inside ▸ List.mem_append_left _ member)
    rw [read_append, foldr_addLine clear, endLines_lines]

theorem read_marker {name : String} (isName : IsFileName name) (rest : String) :
    read ("-- " ++ name ++ " --" ++ "\n" ++ rest) =
      ⟨"", (name, (read rest).comment) :: (read rest).files⟩ := by
  have letters : ("-- " ++ name ++ " --").toList = ['-', '-', ' '] ++ name.toList ++ [' ', '-', '-'] := by
    simp
  have single : lines ("-- " ++ name ++ " --") = [['-', '-', ' '] ++ name.toList ++ [' ', '-', '-']] := by
    unfold lines
    rw [letters, List.splitOn_eq_singleton]
    have oneLine := isName.oneLine
    unfold OneLine at oneLine
    simp [oneLine]
  rw [read_append, single, List.foldr_cons, List.foldr_nil, addLine, fileName?_marker isName]

theorem read_reads : Reads read where
  comment {text} content := by
    have empty : read "" = ⟨"", []⟩ := rfl
    have own := read_content content ""
    rwa [String.append_empty, empty, String.append_empty] at own
  file {text name} rest content isName := by
    have ended : "-- " ++ name ++ " --\n" = "-- " ++ name ++ " --" ++ "\n" := by
      rw [show " --\n" = " --" ++ "\n" from rfl, ← String.append_assoc]
    rw [String.append_assoc, read_content content, ended, read_marker isName, String.append_empty]

end Archive

end Patchbay
