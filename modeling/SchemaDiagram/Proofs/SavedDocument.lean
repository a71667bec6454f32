import Mathlib.Data.List.Nodup
import SchemaDiagram.Proofs.Quoting
import SchemaDiagram.Settings.Printer

/-!
What is printed of settings reads back as a document: a table for each group, in which every entry stands by its
name. The lines are read one by one, so a document is read by what its first line does and by what is below it.
-/

set_option autoImplicit false

namespace SchemaDiagram

namespace Toml

-- The characters that the line of an entry starts with.
def startsKey (c : Char) : Bool := isBareKeyChar c || c = '"' || c = '\''

theorem key_head (t : Text) : ∃ c front, key t = c :: front ∧ startsKey c = true := by
  unfold key
  dsimp only
  split
  · rename_i bare
    simp only [Bool.and_eq_true, Bool.not_eq_true', List.isEmpty_eq_false_iff, List.all_eq_true] at bare
    obtain ⟨c, front, rfl⟩ := List.exists_cons_of_ne_nil bare.1
    exact ⟨c, front, rfl, by simp [startsKey, bare.2 c List.mem_cons_self]⟩
  · split
    · exact ⟨'"', _, rfl, rfl⟩
    · split
      · exact ⟨'\'', _, rfl, rfl⟩
      · exact ⟨'"', _, rfl, rfl⟩

theorem starts_key_apart (c : Char) (starts : startsKey c = true) :
    c ≠ '[' ∧ c ≠ '#' ∧ isGap c = false ∧ c ≠ '\n' ∧ c ≠ '\r' := by
  have other (d : Char) (no : startsKey d = false) : c ≠ d := by
    rintro rfl
    rw [no] at starts
    contradiction
  refine ⟨other '[' rfl, other '#' rfl, ?_, other '\n' rfl, other '\r' rfl⟩
  simp [isGap, other ' ' rfl, other '\t' rfl]

-- A text that no line of a document can be skipped at.
theorem after_gaps_stay (steps : Nat) (c : Char) (t : Text) (remark : c ≠ '#') (gap : isGap c = false) (feed : c ≠ '\n')
    (back : c ≠ '\r') : afterGaps steps (c :: t) = c :: t ∧ afterComment (c :: t) = c :: t := by
  have dropped : (c :: t).dropWhile isGap = c :: t := List.dropWhile_cons_of_neg (by simp [gap])
  have comment : afterComment (c :: t) = c :: t := by
    unfold afterComment
    split
    · rename_i same
      exact absurd (List.cons.inj same).1 remark
    · rfl
  refine ⟨?_, comment⟩
  unfold afterGaps
  split
  · rename_i below ends
    rw [dropped, comment, line_end_none c t feed back] at ends
    contradiction
  · exact dropped

-- What a value is printed as: it is read up to the end of its line.
structure Shows (value : Toml) (shown : Text) : Prop where
  start : ∃ c front, shown = c :: front ∧ isGap c = false
  reads : ∀ rest, value? depthLimit (shown ++ '\n' :: rest) = some (value, '\n' :: rest)

theorem value_of_scalar (depth : Nat) (c : Char) (t : Text) (list : c ≠ '[') (inline : c ≠ '\x7b') :
    value? depth (c :: t) = scalar? (c :: t) := by
  unfold value?
  split
  · rename_i same
    exact absurd (List.cons.inj same).1 list
  · rename_i same
    exact absurd (List.cons.inj same).1 inline
  · rfl

theorem string_head (t : Text) : ∃ c front, string t = c :: front ∧ (c = '"' ∨ c = '\'') := by
  unfold string
  dsimp only
  split
  · exact ⟨'"', _, rfl, .inl rfl⟩
  · split
    · exact ⟨'\'', _, rfl, .inr rfl⟩
    · split
      · exact ⟨'"', _, rfl, .inl rfl⟩
      · split
        · exact ⟨'\'', _, rfl, .inr rfl⟩
        · split
          · exact ⟨'"', _, rfl, .inl rfl⟩
          · exact ⟨'"', _, rfl, .inl rfl⟩

theorem string_shows (t : Text) : Shows (.scalar (.text t)) (string t) := by
  obtain ⟨c, front, same, quote⟩ := string_head t
  have other (d : Char) (double : '"' ≠ d) (single : '\'' ≠ d) : c ≠ d := by
    rcases quote with rfl | rfl
    · exact double
    · exact single
  constructor
  · exact ⟨c, front, same, by simp [isGap, other ' ' (by decide) (by decide), other '\t' (by decide) (by decide)]⟩
  · intro rest
    have reads := string_reads t ('\n' :: rest) (by simp) (by simp)
    rw [same, List.cons_append] at reads ⊢
    rw [value_of_scalar _ c _ (other '[' (by decide) (by decide)) (other '\x7b' (by decide) (by decide)), scalar?,
      reads]

theorem flag_shows (flag : Bool) : Shows (.scalar (.flag flag)) (Scalar.flagText flag) := by
  cases flag with
  | false =>
    refine ⟨⟨'f', _, rfl, rfl⟩, ?_⟩
    intro rest
    rfl
  | true =>
    refine ⟨⟨'t', _, rfl, rfl⟩, ?_⟩
    intro rest
    rfl

theorem line_rest (rest : Text) : lineRest? ('\n' :: rest) = some rest := rfl

theorem keys_alone (steps : Nat) (name rest : Text) :
    keys? (steps + 1) (key name ++ ' ' :: '=' :: rest) = some ([name], '=' :: rest) := by
  rw [keys?, key_reads name (' ' :: '=' :: rest) (by rintro c ⟨⟩; rfl), Option.bind_some]
  rfl

theorem entry_line (current : List Text) (entries : Entries) (name shown rest : Text) (value : Toml)
    (shows : Shows value shown) :
    line? current entries (entry (key name) shown ++ rest) =
      (within false (fun _ => addEntry [name] value) current .header entries).map fun after =>
        (current, after, rest) := by
  obtain ⟨c, front, same, starts⟩ := key_head name
  obtain ⟨d, behind, first, gap⟩ := shows.start
  have spelled : entry (key name) shown ++ rest = key name ++ ' ' :: '=' :: ' ' :: (shown ++ '\n' :: rest) := by
    simp [entry]
  have pair : pair? (value? depthLimit) (key name ++ ' ' :: '=' :: ' ' :: (shown ++ '\n' :: rest)) =
      some ([name], value, '\n' :: rest) := by
    have dropped : (' ' :: (shown ++ '\n' :: rest)).dropWhile isGap = shown ++ '\n' :: rest := by
      rw [first, List.cons_append, List.dropWhile_cons_of_pos (by rfl), List.dropWhile_cons_of_neg (by simp [gap])]
    rw [pair?, depthLimit, keys_alone, Option.bind_some]
    change ((value? 79 ((' ' :: (shown ++ '\n' :: rest)).dropWhile isGap)).map _) = _
    have reads := shows.reads rest
    rw [depthLimit] at reads
    rw [dropped, reads]
    rfl
  rw [spelled]
  unfold line?
  split
  · rename_i bracket
    rw [same, List.cons_append] at bracket
    exact absurd (List.cons.inj bracket).1 (starts_key_apart c starts).1
  · rename_i bracket
    rw [same, List.cons_append] at bracket
    exact absurd (List.cons.inj bracket).1 (starts_key_apart c starts).1
  · rw [pair]
    simp only [Option.bind_eq_bind, Option.bind_some, line_rest]
    cases within false (fun _ => addEntry [name] value) current .header entries <;> rfl

-- Names of a header, each of characters that need no quotes.
def IsBare (name : Text) : Prop := name ≠ [] ∧ name.all isBareKeyChar = true
deriving Decidable

theorem IsBare.letters {name : Text} (bare : IsBare name) : ∀ c ∈ name, isBareKeyChar c = true :=
  List.all_eq_true.mp bare.2

theorem path_head (names : List Text) (rest : Text) (filled : names ≠ []) (bare : ∀ name ∈ names, IsBare name) :
    ∃ c front, ['.'].intercalate names ++ rest = c :: front ∧ startsKey c = true := by
  obtain ⟨name, others, rfl⟩ := List.exists_cons_of_ne_nil filled
  have letters := (bare name List.mem_cons_self).letters
  obtain ⟨c, front, rfl⟩ := List.exists_cons_of_ne_nil (bare name List.mem_cons_self).1
  have starts : startsKey c = true := by simp [startsKey, letters c List.mem_cons_self]
  cases others with
  | nil => exact ⟨c, _, by rw [List.intercalate_singleton, List.cons_append], starts⟩
  | cons second more => exact ⟨c, _, by rw [List.intercalate_cons_cons]; rfl, starts⟩

theorem path_stays (names : List Text) (rest : Text) (filled : names ≠ []) (bare : ∀ name ∈ names, IsBare name) :
    (['.'].intercalate names ++ rest).dropWhile isGap = ['.'].intercalate names ++ rest := by
  obtain ⟨c, front, same, starts⟩ := path_head names rest filled bare
  rw [same]
  exact List.dropWhile_cons_of_neg (by simp [(starts_key_apart c starts).2.2.1])

theorem keys_of_path (steps : Nat) (names : List Text) (rest : Text) (filled : names ≠ []) (few : names.length ≤ steps)
    (bare : ∀ name ∈ names, IsBare name) :
    keys? steps (['.'].intercalate names ++ ']' :: rest) = some (names, ']' :: rest) := by
  induction names generalizing steps with
  | nil => contradiction
  | cons name others ih =>
    rw [List.length_cons] at few
    obtain ⟨steps, rfl⟩ : ∃ fewer, steps = fewer + 1 := ⟨steps - 1, by omega⟩
    have named := (bare name List.mem_cons_self).1
    have chars := (bare name List.mem_cons_self).letters
    cases others with
    | nil =>
      rw [List.intercalate_singleton, keys?, key_bare name (']' :: rest) named chars (by rintro c ⟨⟩; rfl),
        Option.bind_some]
      rfl
    | cons second more =>
      have more_bare : ∀ other ∈ second :: more, IsBare other := fun other member =>
        bare other (List.mem_cons_of_mem name member)
      have further := ih steps (List.cons_ne_nil _ _) (by omega) more_bare
      rw [List.intercalate_cons_cons, List.append_assoc, List.append_assoc, List.singleton_append, keys?,
        key_bare name _ named chars (by rintro c ⟨⟩; rfl), Option.bind_some]
      change (keys? steps ((['.'].intercalate (second :: more) ++ ']' :: rest).dropWhile isGap)).map _ = _
      rw [path_stays _ _ (List.cons_ne_nil _ _) more_bare, further]
      rfl

def headerLine (names : List Text) : Text := '[' :: ['.'].intercalate names ++ [']', '\n']

theorem header_line (current : List Text) (entries : Entries) (names : List Text) (rest : Text) (filled : names ≠ [])
    (few : names.length ≤ depthLimit) (bare : ∀ name ∈ names, IsBare name) :
    line? current entries (headerLine names ++ rest) =
      (openTable names entries).map fun after => (names, after, rest) := by
  have spelled : headerLine names ++ rest = '[' :: (['.'].intercalate names ++ ']' :: '\n' :: rest) := by
    simp [headerLine]
  have header : header? "]" (['.'].intercalate names ++ ']' :: '\n' :: rest) = some (names, '\n' :: rest) := by
    rw [header?, path_stays names _ filled bare, keys_of_path depthLimit names ('\n' :: rest) filled few bare,
      Option.bind_some]
    rfl
  rw [spelled]
  unfold line?
  split
  · rename_i double
    obtain ⟨c, front, same, starts⟩ := path_head names (']' :: '\n' :: rest) filled bare
    rw [same] at double
    exact absurd (List.cons.inj (List.cons.inj double).2).1 (starts_key_apart c starts).1
  · rename_i single
    rw [← (List.cons.inj single).2, header]
    simp only [Option.bind_eq_bind, Option.bind_some, line_rest]
    cases openTable names entries <;> rfl
  · rename_i other
    exact absurd rfl (other _)

-- A text that is read as lines into a document, given what was read before it.
def Reads (current : List Text) (entries : Entries) (t : Text) (document : Entries) : Prop :=
  ∀ steps, t.length < steps → lines? steps current entries t = some document

theorem reads_end (current : List Text) (document : Entries) : Reads current document [] document := by
  intro steps enough
  obtain ⟨steps, rfl⟩ : ∃ fewer, steps = fewer + 1 := ⟨steps - 1, by omega⟩
  rfl

theorem reads_blank (current : List Text) (entries : Entries) (rest : Text) (document : Entries)
    (below : Reads current entries rest document) : Reads current entries ('\n' :: rest) document := by
  intro steps enough
  have same : lines? steps current entries ('\n' :: rest) = lines? steps current entries rest := by
    unfold lines?
    rfl
  rw [same]
  exact below steps (by simp at enough; omega)

theorem reads_line (current further : List Text) (entries after : Entries) (t rest : Text) (document : Entries)
    (start : ∃ c front, t = c :: front ∧ c ≠ '#' ∧ isGap c = false ∧ c ≠ '\n' ∧ c ≠ '\r')
    (shorter : rest.length < t.length)
    (line : line? current entries t = some (further, after, rest)) (below : Reads further after rest document) :
    Reads current entries t document := by
  intro steps enough
  obtain ⟨steps, rfl⟩ : ∃ fewer, steps = fewer + 1 := ⟨steps - 1, by omega⟩
  obtain ⟨c, front, rfl, remark, gap, feed, back⟩ := start
  obtain ⟨stays, comment⟩ := after_gaps_stay (c :: front).length c front remark gap feed back
  unfold lines?
  simp only [stays, comment, List.isEmpty_cons, Bool.false_eq_true, if_false, line, Option.bind_some]
  exact below steps (by omega)

theorem reads_entry (current : List Text) (entries after : Entries) (name shown rest : Text) (value : Toml)
    (document : Entries) (shows : Shows value shown)
    (added : within false (fun _ => addEntry [name] value) current .header entries = some after)
    (below : Reads current after rest document) :
    Reads current entries (entry (key name) shown ++ rest) document := by
  apply reads_line current current entries after _ rest document _ _ _ below
  · obtain ⟨c, front, same, starts⟩ := key_head name
    obtain ⟨_, apart⟩ := starts_key_apart c starts
    exact ⟨c, front ++ (" = ".toList ++ shown ++ ['\n'] ++ rest), by simp [entry, same], apart⟩
  · simp [entry]
    omega
  · rw [entry_line current entries name shown rest value shows, added, Option.map_some]

theorem reads_header (current : List Text) (entries after : Entries) (names : List Text) (rest : Text)
    (document : Entries) (filled : names ≠ []) (few : names.length ≤ depthLimit) (bare : ∀ name ∈ names, IsBare name)
    (opened : openTable names entries = some after) (below : Reads names after rest document) :
    Reads current entries (headerLine names ++ rest) document := by
  apply reads_line current names entries after _ rest document _ _ _ below
  · exact ⟨'[', _, by rw [headerLine, List.cons_append, List.cons_append], by decide⟩
  · simp [headerLine]
    omega
  · rw [header_line current entries names rest filled few bare, opened, Option.map_some]

theorem adjust_fresh (key : Text) (change : Option Toml → Option Toml) (entries : Entries)
    (fresh : ∀ entry ∈ entries, entry.1 ≠ key) :
    adjust key change entries = (change none).map fun value => entries ++ [(key, value)] := by
  induction entries with
  | nil => rfl
  | cons entry others ih =>
    rw [adjust, if_neg (fresh entry List.mem_cons_self), ih fun other member =>
      fresh other (List.mem_cons_of_mem entry member)]
    cases change none <;> rfl

theorem adjust_last (key : Text) (change : Option Toml → Option Toml) (before : Entries) (old : Toml)
    (fresh : ∀ entry ∈ before, entry.1 ≠ key) :
    adjust key change (before ++ [(key, old)]) =
      (change (some old)).map fun value => before ++ [(key, value)] := by
  induction before with
  | nil =>
    rw [List.nil_append, adjust, if_pos rfl]
    rfl
  | cons entry others ih =>
    rw [List.cons_append, adjust, if_neg (fresh entry List.mem_cons_self), ih fun other member =>
      fresh other (List.mem_cons_of_mem entry member)]
    cases change (some old) <;> rfl

theorem add_fresh (name : Text) (value : Toml) (inner : Entries) (fresh : ∀ entry ∈ inner, entry.1 ≠ name) :
    addEntry [name] value inner = some (inner ++ [(name, value)]) := by
  have added := adjust_fresh name (fun known => if known.isSome then none else some value) inner fresh
  exact added

theorem open_fresh (name : Text) (entries : Entries) (fresh : ∀ entry ∈ entries, entry.1 ≠ name) :
    openTable [name] entries = some (entries ++ [(name, table .header [])]) := by
  have absent : entries.lookup name = none := by
    rw [List.lookup_eq_none_iff]
    intro entry member
    simpa using (fresh entry member).symm
  simp only [openTable, List.getLast?_singleton, List.dropLast_singleton, within]
  rw [absent]

-- The table of a header with two names, of which the first stands for a table that only holds the second.
theorem open_below (outer name : Text) (entries : Entries) (fresh : ∀ entry ∈ entries, entry.1 ≠ outer) :
    openTable [outer, name] entries =
      some (entries ++ [(outer, table .implicit [(name, table .header [])])]) := by
  exact adjust_fresh outer _ entries fresh

section

variable (outer name : Text) (value : Toml) (before inner : Entries) (alone : ∀ entry ∈ before, entry.1 ≠ outer)
  (fresh : ∀ entry ∈ inner, entry.1 ≠ name)

include alone fresh

theorem add_to_last :
    within false (fun _ => addEntry [name] value) [outer] .header (before ++ [(outer, table .header inner)]) =
      some (before ++ [(outer, table .header (inner ++ [(name, value)]))]) := by
  rw [within, adjust_last outer _ before _ alone]
  change (((addEntry [name] value inner).map (table .header)).map fun value => before ++ [(outer, value)]) = _
  rw [add_fresh name value inner fresh]
  rfl

theorem add_below_last (group : Text) :
    within false (fun _ => addEntry [name] value) [outer, group] .header
        (before ++ [(outer, table .implicit [(group, table .header inner)])]) =
      some (before ++ [(outer, table .implicit [(group, table .header (inner ++ [(name, value)]))])]) := by
  have last := add_to_last group name value [] inner (by simp) fresh
  rw [List.nil_append, List.nil_append] at last
  rw [within, adjust_last outer _ before _ alone]
  change (((within false (fun _ => addEntry [name] value) [group] .header [(group, table .header inner)]).map
    (table .implicit)).map fun value => before ++ [(outer, value)]) = _
  rw [last]
  rfl

end

-- An entry as it is printed, by name, print and value.
structure Line where
  name : Text
  shown : Text
  value : Toml

def Line.text (line : Line) : Text := entry (key line.name) line.shown

def Line.entry (line : Line) : Text × Toml := (line.name, line.value)

-- The entries of a table, where `hold` tells what document the table is the last one of.
theorem reads_entries (current : List Text) (hold : Entries → Entries)
    (adds : ∀ (inner : Entries) (name : Text) (value : Toml), (∀ entry ∈ inner, entry.1 ≠ name) →
      within false (fun _ => addEntry [name] value) current .header (hold inner) = some (hold (inner ++ [(name, value)])))
    (lines : List Line) (inner : Entries) (rest : Text) (document : Entries)
    (shows : ∀ line ∈ lines, Shows line.value line.shown)
    (distinct : (inner.map Prod.fst ++ lines.map Line.name).Nodup)
    (below : Reads current (hold (inner ++ lines.map Line.entry)) rest document) :
    Reads current (hold inner) (lines.flatMap Line.text ++ rest) document := by
  induction lines generalizing inner with
  | nil =>
    rw [List.map_nil, List.append_nil] at below
    exact below
  | cons line others ih =>
    have fresh : ∀ entry ∈ inner, entry.1 ≠ line.name := by
      intro entry member same
      have apart := List.disjoint_of_nodup_append distinct
      exact apart (List.mem_map_of_mem member) (by rw [same]; exact List.mem_cons_self)
    rw [List.flatMap_cons, List.append_assoc]
    apply reads_entry current _ _ line.name line.shown _ line.value document (shows line List.mem_cons_self)
      (adds inner line.name line.value fresh)
    apply ih
    · exact fun other member => shows other (List.mem_cons_of_mem line member)
    · simpa using distinct
    · simpa [Line.entry] using below

-- A header and the entries below it.
theorem reads_group (current names : List Text) (entries : Entries) (hold : Entries → Entries) (lines : List Line)
    (rest : Text) (document : Entries) (filled : names ≠ []) (few : names.length ≤ depthLimit)
    (bare : ∀ name ∈ names, IsBare name) (opened : openTable names entries = some (hold []))
    (adds : ∀ (inner : Entries) (name : Text) (value : Toml), (∀ entry ∈ inner, entry.1 ≠ name) →
      within false (fun _ => addEntry [name] value) names .header (hold inner) = some (hold (inner ++ [(name, value)])))
    (shows : ∀ line ∈ lines, Shows line.value line.shown) (distinct : (lines.map Line.name).Nodup)
    (below : Reads names (hold (lines.map Line.entry)) rest document) :
    Reads current entries (headerLine names ++ (lines.flatMap Line.text ++ rest)) document :=
  reads_header current entries (hold []) names _ document filled few bare opened
    (reads_entries names hold adds lines [] rest document shows distinct below)

end Toml

namespace Settings

open Toml

variable (settings : Settings)

def textLine (name text : Text) : Line := ⟨name, Toml.string text, .scalar (.text text)⟩

def sourceLines : List Line :=
  textLine "convention" settings.convention.name ::
    settings.searchDir.toList.map fun dir => textLine "search_dir" dir.text

def renderLines : List Line :=
  [textLine "look" settings.look, textLine "layout" settings.layout, textLine "theme" settings.theme,
    ⟨"title", Scalar.flagText settings.title, .scalar (.flag settings.title)⟩]

def projectLines : List Line := settings.projectTypes.map fun (name, label) => textLine name label

-- What is saved of settings, as a document.
def document : Toml.Entries :=
  [("source".toList, .table .header (settings.sourceLines.map Line.entry)),
    ("render".toList, .table .header (settings.renderLines.map Line.entry)),
    ("types".toList, .table .implicit [("project".toList, .table .header (settings.projectLines.map Line.entry))])]

theorem to_toml_lines :
    settings.toToml = headerLine ["source".toList] ++ (settings.sourceLines.flatMap Line.text ++
      '\n' :: (headerLine ["render".toList] ++ (settings.renderLines.flatMap Line.text ++
        '\n' :: (headerLine ["types".toList, "project".toList] ++ (settings.projectLines.flatMap Line.text ++ []))))) := by
  have source : "[source]\n".toList = headerLine ["source".toList] := by decide
  have render : "\n[render]\n".toList = '\n' :: headerLine ["render".toList] := by decide
  have types : "\n[types.project]\n".toList = '\n' :: headerLine ["types".toList, "project".toList] := by
    decide
  have convention : Toml.key "convention" = "convention".toList := by decide
  have searchDir : Toml.key "search_dir" = "search_dir".toList := by decide
  have look : Toml.key "look" = "look".toList := by decide
  have layout : Toml.key "layout" = "layout".toList := by decide
  have theme : Toml.key "theme" = "theme".toList := by decide
  have title : Toml.key "title" = "title".toList := by decide
  have projects : settings.projectLines.flatMap Line.text =
      settings.projectTypes.flatMap fun (name, label) => Toml.entry (Toml.key name) (Toml.string label) := by
    rw [projectLines, List.flatMap_map]
    rfl
  unfold toToml sourceLines renderLines
  cases settings.searchDir with
  | none =>
    simp only [source, render, types, projects, Option.toList_none, List.map_nil, List.flatMap_cons, List.flatMap_nil,
      Line.text, textLine, convention, look, layout, theme, title, List.append_assoc, List.append_nil,
      List.cons_append]
  | some dir =>
    simp only [source, render, types, projects, Option.toList_some, List.map_cons, List.map_nil, List.flatMap_cons,
      List.flatMap_nil, Line.text, textLine, convention, searchDir, look, layout, theme, title, List.append_assoc,
      List.append_nil, List.cons_append]

theorem lines_show : ∀ line ∈ settings.sourceLines ++ settings.renderLines ++ settings.projectLines,
    Shows line.value line.shown := by
  have text (name text : Text) : Shows (textLine name text).value (textLine name text).shown := string_shows text
  intro line member
  simp only [sourceLines, renderLines, projectLines, List.mem_append, List.mem_cons, List.mem_map, List.not_mem_nil,
    or_false] at member
  rcases member with ((rfl | ⟨dir, _, rfl⟩) | (rfl | rfl | rfl | rfl)) | ⟨⟨name, label⟩, _, rfl⟩
  · exact text _ _
  · exact text _ _
  · exact text _ _
  · exact text _ _
  · exact text _ _
  · exact flag_shows settings.title
  · exact text name label

theorem source_names : (settings.sourceLines.map Line.name).Nodup := by
  unfold sourceLines
  cases settings.searchDir with
  | none =>
    change ["convention".toList].Nodup
    decide
  | some dir =>
    change ["convention".toList, "search_dir".toList].Nodup
    decide

theorem render_names : (settings.renderLines.map Line.name).Nodup := by
  change ["look".toList, "layout".toList, "theme".toList, "title".toList].Nodup
  decide

theorem parse_to_toml (distinct : (settings.projectTypes.map Prod.fst).Nodup) :
    Toml.parse? settings.toToml = some settings.document := by
  have shows := settings.lines_show
  let source : Toml.Entries := [("source".toList, .table .header (settings.sourceLines.map Line.entry))]
  let render : Toml.Entries := source ++ [("render".toList, .table .header (settings.renderLines.map Line.entry))]
  have renderFresh : ∀ entry ∈ source, entry.1 ≠ "render".toList := by simp [source]
  have typesFresh : ∀ entry ∈ render, entry.1 ≠ "types".toList := by simp [render, source]
  have typesRead := reads_group ["render".toList] ["types".toList, "project".toList] render
    (fun inner => render ++ [("types".toList, .table .implicit [("project".toList, .table .header inner)])])
    settings.projectLines [] settings.document (by simp) (by decide) (by decide)
    (open_below _ _ render typesFresh)
    (fun inner name value fresh => add_below_last _ name value render inner typesFresh fresh _)
    (fun line member => shows line (List.mem_append_right _ member))
    (by simpa [projectLines, textLine, Function.comp_def] using distinct) (reads_end _ _)
  have renderRead := reads_group ["source".toList] ["render".toList] source
    (fun inner => source ++ [("render".toList, .table .header inner)])
    settings.renderLines _ settings.document (by simp) (by decide) (by decide)
    (open_fresh _ source renderFresh)
    (fun inner name value fresh => add_to_last _ name value source inner renderFresh fresh)
    (fun line member => shows line (List.mem_append_left _ (List.mem_append_right _ member)))
    settings.render_names (reads_blank _ _ _ _ typesRead)
  have whole := reads_group [] ["source".toList] []
    (fun inner => [] ++ [("source".toList, .table .header inner)])
    settings.sourceLines _ settings.document (by simp) (by decide) (by decide)
    (open_fresh _ [] (by simp))
    (fun inner name value fresh => add_to_last _ name value [] inner (by simp) fresh)
    (fun line member => shows line (List.mem_append_left _ (List.mem_append_left _ member)))
    settings.source_names (reads_blank _ _ _ _ renderRead)
  rw [← to_toml_lines] at whole
  have unmarked : Text.after? "\uFEFF" settings.toToml = none := by
    rw [to_toml_lines]
    rfl
  rw [Toml.parse?, unmarked]
  exact whole _ (Nat.lt_succ_self _)

end Settings

end SchemaDiagram
