import Docsite.FrontMatter
import Docsite.Proofs.Text.Lines
import Docsite.Proofs.Yaml.RoundTrip

/-!
# Docsite.Proofs.FrontMatter.Block

Pages taken apart again.

A reader of a page takes its lines up to the second line `---` for the block, and what is behind the
blank line after that for the page without front matter (`Divides`).  No field can bring a line
`---` into the block, and a page that has such lines itself has them behind the block, so every page
that was put together is taken apart at the same place and in no other way (`prepend?_divides`).
The block then gives the fields, each as a string.
-/

namespace Docsite.FrontMatter

/-- The page is the lines of a block between two delimiters, a blank line, and a content.  The block
has no delimiter among its lines, so it ends with the first one behind it. -/
def Divides (page : List Char) (block : List (List Char)) (content : List Char) : Prop :=
  Text.lines page = delimiter :: (block ++ delimiter :: [] :: Text.lines content) ∧
    delimiter ∉ block

/-- A delimiter behind lines that are none is found at one place. -/
theorem eq_of_append_delimiter {before before' after after' : List (List Char)}
    (free : delimiter ∉ before) (free' : delimiter ∉ before')
    (same : before ++ delimiter :: after = before' ++ delimiter :: after') :
    before = before' ∧ after = after' := by
  induction before generalizing before' with
  | nil =>
    cases before' with
    | nil => exact ⟨rfl, List.tail_eq_of_cons_eq same⟩
    | cons l ls => exact absurd (List.mem_cons.mpr (.inl (List.head_eq_of_cons_eq same))) free'
  | cons l ls ih =>
    cases before' with
    | nil => exact absurd (List.mem_cons.mpr (.inl (List.head_eq_of_cons_eq same).symm)) free
    | cons m ms =>
      rw [List.mem_cons, not_or] at free free'
      obtain ⟨rfl, rest⟩ := List.cons.inj same
      obtain ⟨rfl, rfl⟩ := ih free.2 free'.2 rest
      exact ⟨rfl, rfl⟩

/-- A page is divided in one way at most. -/
theorem Divides.unique {page content content' : List Char} {block block' : List (List Char)}
    (h : Divides page block content) (h' : Divides page block' content') :
    block' = block ∧ content' = content := by
  obtain ⟨lines, free⟩ := h
  obtain ⟨lines', free'⟩ := h'
  rw [lines, List.cons.injEq] at lines'
  obtain ⟨rfl, rest⟩ := eq_of_append_delimiter free free' lines'.2
  refine ⟨rfl, ?_⟩
  rw [← Text.unlines_lines content', ← Text.unlines_lines content, (List.cons.inj rest).2]

/-! ## the lines of a block -/

/-- A field without the line feed at the end of its line. -/
def fieldText (field : String × String) : List Char :=
  field.1.toList ++ ':' :: ' ' :: Yaml.scalar field.2.toList

theorem fieldLine_eq (field : String × String) : fieldLine field = fieldText field ++ ['\n'] := by
  simp [fieldLine, fieldText]

/-- Names and values of fields as strings. -/
def asStrings (field : String × String) : Yaml.Value × Yaml.Value :=
  (⟨.string, field.1.toList⟩, ⟨.string, field.2.toList⟩)

theorem isKey_name {fm : FrontMatter} {field : String × String} (mem : field ∈ fm.fields) :
    Yaml.IsKey field.1.toList := by
  have names : field.1 = "title" ∨ field.1 = "sidebar_label" ∨ field.1 = "slug" := by
    cases slug : fm.slug <;> simp [fields, slug] at mem <;> grind
  rcases names with is | is | is
  all_goals
    rw [is]
    exact ⟨by decide, List.all_eq_true.mp rfl, by decide +kernel⟩

/-- A line of the block is no delimiter. -/
theorem fieldText_ne_delimiter {field : String × String} (key : Yaml.IsKey field.1.toList) :
    fieldText field ≠ delimiter := by
  obtain ⟨c, cs, is⟩ := List.exists_cons_of_ne_nil key.filled
  have letter := key.letters c (by rw [is]; exact List.mem_cons_self)
  rw [fieldText, is]
  intro same
  exact Yaml.ne_of_isKeyChar letter (by decide) (List.head_eq_of_cons_eq same)

theorem isLineChar_of_mem_fieldText {field : String × String} (key : Yaml.IsKey field.1.toList)
    (oneLine : ∀ c ∈ field.2.toList, Yaml.isBreak c = false) {c : Char}
    (mem : c ∈ fieldText field) : Yaml.isLineChar c = true := by
  rw [fieldText, List.mem_append, List.mem_cons, List.mem_cons] at mem
  rcases mem with name | rfl | rfl | value
  · have letter := key.letters c name
    simp only [Yaml.isKeyChar, Yaml.isLineChar] at *
    grind
  · decide
  · decide
  · exact Yaml.isLineChar_of_mem_scalar oneLine value

/-- A block has no carriage return, whatever the fields say. -/
theorem return_notMem_block (fm : FrontMatter) : '\r' ∉ fm.block := by
  have inField : ∀ field ∈ fm.fields, '\r' ∉ fieldLine field := by
    intro field mem
    have inName : '\r' ∉ field.1.toList := fun inside =>
      absurd ((isKey_name mem).letters _ inside) (by decide)
    simp [fieldLine_eq, fieldText, inName, Yaml.return_notMem_scalar]
  have inDelimiter : '\r' ∉ delimiter := by decide
  simpa [block, inDelimiter] using inField

theorem lines_block {texts : List (List Char)} (oneLine : ∀ l ∈ texts, '\n' ∉ l)
    (rest : List Char) :
    Text.lines (texts.flatMap (· ++ ['\n']) ++ rest) = texts ++ Text.lines rest := by
  induction texts with
  | nil => rfl
  | cons l ls ih =>
    rw [List.forall_mem_cons] at oneLine
    rw [List.flatMap_cons, List.append_assoc, List.append_assoc, List.singleton_append,
      Text.lines_append oneLine.1, ih oneLine.2, List.cons_append]

theorem mapM_readEntry {fs : List (String × String)}
    (keys : ∀ f ∈ fs, Yaml.IsKey f.1.toList)
    (oneLine : ∀ f ∈ fs, ∀ c ∈ f.2.toList, Yaml.isBreak c = false) :
    (fs.map fieldText).mapM Yaml.readEntry = some (fs.map asStrings) := by
  induction fs with
  | nil => rfl
  | cons f fs ih =>
    rw [List.forall_mem_cons] at keys oneLine
    have first : Yaml.readEntry (fieldText f) = some (asStrings f) :=
      Yaml.readEntry_scalar keys.1 oneLine.1
    rw [List.map_cons, List.mapM_cons, first, ih keys.2 oneLine.2]
    rfl

/-- **A page can be taken apart again.**  If no field is broken into lines, the page with front
matter is divided in one way only: into the block, whose lines are a mapping from `title`,
`sidebar_label` and, on the home page, `slug` to the fields, all of them strings, and the page
without front matter, which is what it was. -/
theorem prepend?_divides (tables : Tables) {content title : List Char}
    (titled : titleOf? content = some title)
    (oneLine : ∀ field ∈ (ofTitle tables (.ofList title)).fields,
      ∀ c ∈ field.2.toList, Yaml.isBreak c = false) :
    let fm := ofTitle tables (.ofList title)
    let string (s : String) : Yaml.Value := ⟨.string, s.toList⟩
    ∃ page block, prepend? tables content = some (fm, page) ∧
      (∀ block' content', Divides page block' content' ↔ block' = block ∧ content' = content) ∧
      Yaml.readMapping block = some
        ([(string "title", string fm.title), (string "sidebar_label", string fm.sidebarLabel)] ++
          (fm.slug.map fun slug => (string "slug", string slug)).toList) := by
  intro fm string
  have keys : ∀ field ∈ fm.fields, Yaml.IsKey field.1.toList := fun field => isKey_name
  have shown : ∀ l ∈ fm.fields.map fieldText, ∀ c ∈ l, Yaml.isLineChar c = true := by
    rw [List.forall_mem_map]
    exact fun field mem c inside =>
      isLineChar_of_mem_fieldText (keys field mem) (oneLine field mem) inside
  have free : delimiter ∉ fm.fields.map fieldText := by
    rw [List.mem_map]
    rintro ⟨field, mem, is⟩
    exact fieldText_ne_delimiter (keys field mem) is
  have divided :
      Divides (fm.block ++ '\n' :: '\n' :: content) (fm.fields.map fieldText) content := by
    refine ⟨?_, free⟩
    have feeds : ∀ l ∈ fm.fields.map fieldText, '\n' ∉ l := fun l mem inside =>
      absurd (shown l mem '\n' inside) (by decide)
    have text : fm.block ++ '\n' :: '\n' :: content =
        delimiter ++ '\n' :: ((fm.fields.map fieldText).flatMap (· ++ ['\n']) ++
          (delimiter ++ '\n' :: '\n' :: content)) := by
      simp [block, List.flatMap_map, funext fieldLine_eq]
    rw [text, Text.lines_append (by decide), lines_block feeds, Text.lines_append (by decide),
      Text.lines_newline]
  have fields : fm.fields.map asStrings =
      [(string "title", string fm.title), (string "sidebar_label", string fm.sidebarLabel)] ++
        (fm.slug.map fun slug => (string "slug", string slug)).toList := by
    cases slug : fm.slug <;> simp [fields, slug, asStrings, string]
  refine ⟨fm.block ++ '\n' :: '\n' :: content, fm.fields.map fieldText, ?_, ?_, ?_⟩
  · rw [prepend?, toOption_extractTitle, titled]
    rfl
  · intro block' content'
    constructor
    · exact divided.unique
    · rintro ⟨rfl, rfl⟩
      exact divided
  · rw [Yaml.readMapping, if_pos, mapM_readEntry keys oneLine, fields]
    simpa only [List.all_eq_true] using shown

/-- A label with marks of all kinds and a tab, an address that looks like a date, and a page with
delimiters of its own. -/
theorem prepend?_divides_home :
    let tables : Tables :=
      { titleOverrides := [("Docs", "it's \"#1\": \t🔧")], homeTitle := "Docs",
        homeSlug := "2020-01-02" }
    let content := "# Docs\n---\na: b\n---\n".toList
    let label : Yaml.Value := ⟨.string, "it's \"#1\": \t🔧".toList⟩
    titleOf? content = some "Docs".toList ∧
      (∀ field ∈ (ofTitle tables "Docs").fields, ∀ c ∈ field.2.toList, Yaml.isBreak c = false) ∧
      ∃ page block, (prepend? tables content).map Prod.snd = some page ∧
        (∀ block' content', Divides page block' content' ↔
          block' = block ∧ content' = content) ∧
        Yaml.readMapping block = some
          [(⟨.string, "title".toList⟩, label), (⟨.string, "sidebar_label".toList⟩, label),
            (⟨.string, "slug".toList⟩, ⟨.string, "2020-01-02".toList⟩)] := by
  intro tables content label
  have titled : titleOf? content = some "Docs".toList := by decide
  have oneLine : ∀ field ∈ (ofTitle tables (.ofList "Docs".toList)).fields,
      ∀ c ∈ field.2.toList, Yaml.isBreak c = false := by
    have shown : ((ofTitle tables (.ofList "Docs".toList)).fields.all fun field =>
        field.2.toList.all (!Yaml.isBreak ·)) = true := by
      decide
    simpa only [List.all_eq_true, Bool.not_eq_true'] using shown
  obtain ⟨page, block, made, divided, read⟩ := prepend?_divides tables titled oneLine
  exact ⟨titled, oneLine, page, block, by rw [made]; rfl, divided, read⟩

end Docsite.FrontMatter
