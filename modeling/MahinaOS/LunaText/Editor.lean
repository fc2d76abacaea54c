import MahinaOS.Lib.Needle
import MahinaOS.Lib.Text

/-!
# The text editor's file

`luna-text` reads a file into lines with `str::lines` and writes them back joined by newlines.  A
line loses its line ending on the way in, so a final newline and every carriage return before a
newline are lost (`saveFile_opened_iff`).
-/

namespace LunaText

open List Text Needle

/-- The part of the editor's state that a save reads or changes. -/
structure TextEditor where
  lines : List (List Char) := [[]]
  modified : Bool := false
  filename : String := "[Untitled]"
  deriving DecidableEq

namespace TextEditor

/-- `main` with a path whose file could be read. -/
def opened (path : String) (content : List Char) : TextEditor where
  lines := if (Text.lines content).isEmpty then [[]] else Text.lines content
  filename := path

/-- `save_file`, if the write succeeds: the path and what is written to it, and the editor after. -/
def saveFile (e : TextEditor) : (String × List Char) × TextEditor :=
  let content := ['\n'].intercalate e.lines
  let path := if e.filename = "[Untitled]" then "/tmp/luna-text-buffer.txt" else e.filename
  ((path, content), { e with
    modified := false
    filename := if e.filename = "[Untitled]" then path else e.filename })

theorem strip_eq_self_iff (l : List Char) :
    stripLineEnd (l ++ ['\n']) = l ↔ l.getLast? ≠ some '\r' := by
  have hstrip : stripLineEnd (l ++ ['\n']) =
      if l.getLast? = some '\r' then l.dropLast else l := by simp [stripLineEnd]
  rw [hstrip]
  split_ifs with hr
  · obtain ⟨l, rfl⟩ := getLast?_eq_some_iff.1 hr
    simp [eq_comm]
  · exact iff_of_true rfl hr

theorem lines_opened (path : String) {content : List Char} (hne : content ≠ []) :
    (opened path content).lines = Text.lines content := by
  simp [opened, Text.lines, splitInclusive_ne_nil hne]

theorem intercalate_opened_iff (path : String) (content : List Char) :
    ['\n'].intercalate (opened path content).lines = content ↔
      content.getLast? ≠ some '\n' ∧ ¬['\r', '\n'] <:+: content := by
  -- from one newline of the text to the next
  induction hn : content.length using Nat.strong_induction_on generalizing content with
  | _ n ih =>
  by_cases hmem : '\n' ∈ content
  · obtain ⟨l, rest, rfl, hl⟩ := eq_append_cons_of_mem hmem
    have hsplit := splitInclusive_append hl rest
    have hstrip : '\n' ∉ stripLineEnd (l ++ ['\n']) :=
      newline_notMem_of_mem_lines (mem_map_of_mem (hsplit ▸ mem_cons_self))
    rw [lines_opened path (append_ne_nil_of_right_ne_nil l (cons_ne_nil _ _)), Text.lines, hsplit,
      map_cons]
    rcases eq_or_ne rest [] with rfl | hrest
    · refine iff_of_false (fun h => hstrip ?_) fun h => h.1 getLast?_concat
      rw [show splitInclusive [] = [] from rfl, map_nil, intercalate_singleton] at h
      rw [h]
      exact mem_append_right _ mem_cons_self
    · have hne : (splitInclusive rest).map stripLineEnd ≠ [] := by
        simp [splitInclusive_ne_nil hrest]
      have ih := ih rest.length (by simp [← hn]; omega) rest rfl
      rw [lines_opened path hrest, Text.lines] at ih
      have hinfix : ['\r', '\n'] <:+: l ++ '\n' :: rest ↔
          ['\r'] <:+ l ∧ [] <+: rest ∨ ['\r', '\n'] <:+: rest :=
        tagged_infix_iff (show '\n' ∉ ['\r'] by simp) hl [] rest
      have hcut : stripLineEnd (l ++ ['\n']) ++ '\n' :: ['\n'].intercalate
          ((splitInclusive rest).map stripLineEnd) = l ++ '\n' :: rest ↔ _ ∧ _ :=
        ⟨append_cons_inj hstrip hl, fun h => by rw [h.1, h.2]⟩
      rw [intercalate_cons_of_ne_nil hne, append_assoc, singleton_append, hcut, ih, hinfix,
        singleton_suffix_iff_getLast?_eq_some, strip_eq_self_iff,
        getLast?_append_of_ne_nil _ (cons_ne_nil _ _), getLast?_cons_of_ne_nil hrest]
      simp only [and_true, nil_prefix, not_or]
      tauto
  · have hlast : content.getLast? ≠ some '\n' := fun h => hmem (mem_of_getLast? h)
    have hinfix : ¬['\r', '\n'] <:+: content := fun h => hmem (h.subset (by simp))
    refine iff_of_true ?_ ⟨hlast, hinfix⟩
    rcases eq_or_ne content [] with rfl | hne
    · rfl
    · simp [opened, Text.lines, splitInclusive_of_notMem hmem hne, stripLineEnd, hlast]

/-- **Opening and saving a file** writes back what was in it exactly if the file is not called
`[Untitled]`, does not end with a newline and has no carriage return before one. -/
theorem saveFile_opened_iff (path : String) (content : List Char) :
    (saveFile (opened path content)).1 = (path, content) ↔
      path ≠ "[Untitled]" ∧ content.getLast? ≠ some '\n' ∧ ¬['\r', '\n'] <:+: content := by
  rw [← intercalate_opened_iff path, saveFile, Prod.mk.injEq]
  refine and_congr_left fun _ => ?_
  show (if path = _ then _ else path) = path ↔ _
  split
  · next h => simp [h]
  · next h => simp [h]

/-- A final newline is lost, and so is a carriage return. -/
theorem saveFile_loses_line_ends :
    (saveFile (opened "notes.txt" "a\n".toList)).1.2 = "a".toList ∧
      (saveFile (opened "notes.txt" "a\r\nb".toList)).1.2 = "a\nb".toList := by
  decide

end TextEditor

end LunaText
