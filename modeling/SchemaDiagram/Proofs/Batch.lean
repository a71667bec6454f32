import SchemaDiagram.CommandLine.Session
import SchemaDiagram.Proofs.Documents

/-!
A batch over a directory against a run over each of its schema files. Both write the same documents to the same places,
which are as many as there are schema files and none of which is one, whatever documents are there already.
-/

set_option autoImplicit false

namespace SchemaDiagram

namespace Document

-- Where the document of a schema file stands in a directory.
def placeFor (folder : Location) (input : Path) : Location := folder ++ [nameFor input]

theorem name_of_joined (dir : Path) (filled : dir.text ≠ []) (stem : Text)
    (named : Path.IsName (stem ++ ".cds".toList)) :
    nameFor (dir.join ⟨stem ++ ".cds".toList⟩) = stem ++ ".md".toList := by
  rw [nameFor, dir.join_file_name filled _ named, Option.getD_some, Document.stem, Text.before_append, Option.getD_some]

end Document

-- A schema file of a directory, and the document that goes with it.
structure Listed (disk : Disk) (dir : Path) (folder : Location) (input : Path) (stem : Text) : Prop where
  spelled : input = dir.join ⟨stem ++ ".cds".toList⟩
  named : Path.IsName (stem ++ ".cds".toList)
  file : ∃ content, disk.node? (folder ++ [stem ++ ".cds".toList]) = some (.file content)
  document : Document.nameFor input = stem ++ ".md".toList

namespace Listed

variable {disk : Disk} {dir input : Path} {folder : Location} {stem : Text}

theorem of_name (proper : disk.Proper) (found : disk.find? dir = some (folder, .dir)) (convention : Convention)
    (name : Text) (inside : name ∈ (disk.fileNames folder).filter convention.admits) :
    ∃ stem, name = stem ++ ".cds".toList ∧ Listed disk dir folder (dir.join ⟨name⟩) stem := by
  have filled := disk.filled_of_find dir folder found
  obtain ⟨named, -⟩ := Disk.admitted_named proper convention folder name inside
  obtain ⟨admitted, there⟩ := (Disk.mem_admitted proper convention folder name).mp inside
  obtain ⟨stem, rfl⟩ := convention.admitted_ending name admitted
  exact ⟨stem, rfl, rfl, named, there, Document.name_of_joined dir filled stem named⟩

theorem of_member (proper : disk.Proper) (found : disk.find? dir = some (folder, .dir)) (convention : Convention)
    (member : input ∈ disk.list convention dir) : ∃ stem, Listed disk dir folder input stem := by
  rw [Disk.list, found] at member
  obtain ⟨name, inside, rfl⟩ := List.mem_map.mp member
  obtain ⟨stem, -, listed⟩ := of_name proper found convention name inside
  exact ⟨stem, listed⟩

variable (listed : Listed disk dir folder input stem)

include listed

theorem document_named : Path.IsName (Document.nameFor input) := by
  have long : 3 ≤ (Document.nameFor input).length := by simp [listed.document]
  have slash : '/' ∉ Document.nameFor input := by
    have whole := listed.named.2.1
    rw [List.mem_append, not_or] at whole
    simp [listed.document, whole.1]
  generalize Document.nameFor input = name at long slash
  refine ⟨?_, slash, ?_, ?_⟩
  · rintro rfl
    contradiction
  · rintro rfl
    contradiction
  · rintro rfl
    contradiction

theorem document_ends : Text.endsWith ".md" (Document.nameFor input) = true :=
  (Text.ends_with_iff _ _).mpr ⟨stem, listed.document⟩

theorem is_document : Disk.isDocument (Document.placeFor folder input) = true := by
  rw [Disk.isDocument, Document.placeFor, List.getLast?_concat, Option.any_some]
  exact listed.document_ends

-- Beside its schema file a document has the path that it has in the directory.
theorem document_beside (found : disk.find? dir = some (folder, .dir)) :
    (input.sibling (Document.nameFor input)).same (dir.join ⟨Document.nameFor input⟩) = true := by
  have filled := disk.filled_of_find dir folder found
  obtain ⟨parent, beside, shortens⟩ := dir.join_sibling filled _ listed.named (Document.nameFor input)
  rw [← listed.spelled] at beside
  rw [beside]
  exact shortens.join_same parent dir filled _ listed.document_named

end Listed

namespace Session

def upon (session : Session) (disk : Disk) : Session := { session with disk }

theorem complain_of_upon (session : Session) (disk : Disk) (input : Path) (report : Report) :
    (session.upon disk).complainOf input report = (session.complainOf input report).upon disk := by
  unfold complainOf
  induction report.diagnostics generalizing session with
  | nil => rfl
  | cons diagnostic others ih => exact ih (session.complain _)

theorem complain_of_code (session : Session) (input : Path) (report : Report) :
    (session.complainOf input report).exitCode = session.exitCode := by
  unfold complainOf
  induction report.diagnostics generalizing session with
  | nil => rfl
  | cons diagnostic others ih => exact ih (session.complain _)

section

variable (session : Session) (disk : Disk) (dir short : Path) (folder : Location)
  (found : disk.find? dir = some (folder, .dir)) (shortens : short.Shortens dir) (name document : Text)
  (named : Path.IsName name) (writable : disk.Writable (folder ++ [name])) (goOn : Session → Session)

include found shortens named writable

theorem write_reachable (reachable : Disk.Reachable (short.join ⟨name⟩) name) :
    (session.upon disk).write (short.join ⟨name⟩) document goOn =
      goOn (session.upon (disk.put (folder ++ [name]) (.file (Disk.encode document)))) := by
  have opened := (disk.open_joined dir short folder found shortens name named writable _).mpr ⟨reachable, rfl⟩
  have written : (session.upon disk).disk.write (short.join ⟨name⟩) document =
      .ok (disk.put (folder ++ [name]) (.file (Disk.encode document))) := by
    change disk.write (short.join ⟨name⟩) document = _
    rw [Disk.write, opened]
    rfl
  rw [write, written]
  rfl

theorem write_unreachable (unreachable : ¬ Disk.Reachable (short.join ⟨name⟩) name) :
    ((session.upon disk).write (short.join ⟨name⟩) document goOn).exitCode = 1 := by
  cases opened : disk.openForWriting (short.join ⟨name⟩) with
  | ok location =>
    exact absurd ((disk.open_joined dir short folder found shortens name named writable _).mp opened).1 unreachable
  | error error =>
    have failed : (session.upon disk).disk.write (short.join ⟨name⟩) document = .error error := by
      change disk.write (short.join ⟨name⟩) document = _
      rw [Disk.write, opened]
      rfl
    rw [write, failed]
    rfl

end

end Session

-- A directory in which the document of an input can be put.
structure Room (disk : Disk) (folder : Location) (input : Path) : Prop where
  named : Path.IsName (Document.nameFor input)
  document : Disk.isDocument (Document.placeFor folder input) = true
  writable : disk.Writable (Document.placeFor folder input)

theorem Room.kept {a b : Disk} (alike : a.Alike b) (folder : Location) (input : Path) (room : Room a folder input) :
    Room b folder input := ⟨room.named, room.document, alike.writable _ room.writable⟩

-- The documents of a batch, put one after the other.
def documents (folder : Location) : List (Path × Report) → Disk → Disk
  | [], disk => disk
  | (input, report) :: rest, disk =>
    documents folder rest (disk.put (Document.placeFor folder input) (.file (Disk.encode report.document)))

theorem documents_other (folder : Location) (reports : List (Path × Report)) (disk : Disk) (location : Location)
    (apart : location ∉ reports.map fun entry => Document.placeFor folder entry.1) :
    (documents folder reports disk).node? location = disk.node? location := by
  induction reports generalizing disk with
  | nil => rfl
  | cons entry rest ih =>
    obtain ⟨input, report⟩ := entry
    rw [List.map_cons, List.mem_cons, not_or] at apart
    rw [documents, ih _ apart.2, disk.node_put _ _ (by simp [Document.placeFor]), if_neg apart.1]

theorem documents_at (folder : Location) (reports : List (Path × Report)) (disk : Disk)
    (distinct : (reports.map fun entry => Document.placeFor folder entry.1).Nodup) (input : Path) (report : Report)
    (member : (input, report) ∈ reports) :
    (documents folder reports disk).node? (Document.placeFor folder input) =
      some (.file (Disk.encode report.document)) := by
  induction reports generalizing disk with
  | nil => contradiction
  | cons entry rest ih =>
    rw [List.map_cons, List.nodup_cons] at distinct
    rcases List.mem_cons.mp member with rfl | later
    · rw [documents, documents_other folder rest _ _ distinct.1, disk.node_put _ _ (by simp [Document.placeFor]),
        if_pos rfl]
    · exact ih _ distinct.2 later

namespace Session

def speak (session : Session) (dir input : Path) (report : Report) : Session :=
  (session.complainOf input report).print
    ("  ".toList ++ input.text ++ " -> ".toList ++ (dir.join ⟨Document.nameFor input⟩).text)

-- What a batch says that writes all its documents.
def spoken (count : Nat) (dir : Path) : List (Path × Report) → Session → Session
  | [], session => session.print ("Rendered ".toList ++ decimal count ++ " file(s)".toList)
  | (input, report) :: rest, session => spoken count dir rest (session.speak dir input report)

theorem spoken_code (count : Nat) (dir : Path) (reports : List (Path × Report)) (session : Session) :
    (spoken count dir reports session).exitCode = session.exitCode := by
  induction reports generalizing session with
  | nil => rfl
  | cons entry rest ih =>
    obtain ⟨input, report⟩ := entry
    exact (ih _).trans (session.complain_of_code input report)

section

variable (count : Nat) (dir : Path) (folder : Location) (filled : dir.text ≠ [])

include filled

theorem write_all_reachable (reports : List (Path × Report)) (session : Session) (disk : Disk)
    (found : disk.find? dir = some (folder, .dir)) (room : ∀ entry ∈ reports, Room disk folder entry.1)
    (reachable : ∀ entry ∈ reports,
      Disk.Reachable (dir.join ⟨Document.nameFor entry.1⟩) (Document.nameFor entry.1)) :
    writeAll count dir reports (session.upon disk) =
      (spoken count dir reports session).upon (documents folder reports disk) := by
  induction reports generalizing session disk with
  | nil => rfl
  | cons entry rest ih =>
    obtain ⟨input, report⟩ := entry
    have first := room _ List.mem_cons_self
    have alike := (Disk.Alike.refl disk).put _ first.document first.writable (Disk.encode report.document)
    rw [writeAll, complain_of_upon, write_reachable _ disk dir dir folder found (dir.shortens_itself filled) _ _
      first.named first.writable _ (reachable _ List.mem_cons_self)]
    exact ih (session.speak dir input report) _ (alike.find_dir dir folder found)
      (fun other member => (room other (List.mem_cons_of_mem _ member)).kept alike folder)
      fun other member => reachable other (List.mem_cons_of_mem _ member)

theorem write_all_succeeds (reports : List (Path × Report)) (session : Session) (disk : Disk)
    (found : disk.find? dir = some (folder, .dir)) (room : ∀ entry ∈ reports, Room disk folder entry.1)
    (succeeds : (writeAll count dir reports (session.upon disk)).exitCode = 0) :
    ∀ entry ∈ reports, Disk.Reachable (dir.join ⟨Document.nameFor entry.1⟩) (Document.nameFor entry.1) := by
  induction reports generalizing session disk with
  | nil => simp
  | cons entry rest ih =>
    obtain ⟨input, report⟩ := entry
    have first := room _ List.mem_cons_self
    have alike := (Disk.Alike.refl disk).put _ first.document first.writable (Disk.encode report.document)
    rw [writeAll, complain_of_upon] at succeeds
    by_cases reachable : Disk.Reachable (dir.join ⟨Document.nameFor input⟩) (Document.nameFor input)
    · rw [write_reachable _ disk dir dir folder found (dir.shortens_itself filled) _ _ first.named first.writable _
        reachable] at succeeds
      have further := ih (session.speak dir input report) _ (alike.find_dir dir folder found)
        (fun other member => (room other (List.mem_cons_of_mem _ member)).kept alike folder) succeeds
      intro other member
      rcases List.mem_cons.mp member with rfl | later
      · exact reachable
      · exact further other later
    · rw [write_unreachable _ disk dir dir folder found (dir.shortens_itself filled) _ _ first.named first.writable _
        reachable] at succeeds
      contradiction

end

-- What a batch over a directory writes.
def reports (disk : Disk) (settings : Settings) (dir : Path) : List (Path × Report) :=
  Report.ofDirectory (disk.source settings.convention) settings dir

theorem reports_listed (disk : Disk) (settings : Settings) (dir : Path) :
    (reports disk settings dir).map Prod.fst = disk.list settings.convention dir := by
  rw [reports, Report.ofDirectory, List.map_map]
  exact List.map_id _

theorem mem_of_reports (disk : Disk) (settings : Settings) (dir : Path) (entry : Path × Report)
    (member : entry ∈ reports disk settings dir) : entry.1 ∈ disk.list settings.convention dir := by
  rw [← reports_listed]
  exact List.mem_map_of_mem member

-- What a batch says of a directory whose documents can all be written.
def transcript (dir : Path) (reports : List (Path × Report)) : Session :=
  if reports.isEmpty then print { disk := {} } ("No schema files in ".toList ++ dir.text)
  else spoken reports.length dir reports { disk := {} }

theorem transcript_code (dir : Path) (reports : List (Path × Report)) : (transcript dir reports).exitCode = 0 := by
  unfold transcript
  split
  · rfl
  · exact spoken_code _ dir reports _

section

variable (disk : Disk) (settings : Settings) (dir : Path) (folder : Location)
  (found : disk.find? dir = some (folder, .dir))

include found

theorem batch_begins :
    obey { disk } settings (.batch dir none) =
      if (reports disk settings dir).isEmpty then
        print (upon { disk := {} } disk) ("No schema files in ".toList ++ dir.text)
      else writeAll (reports disk settings dir).length dir (reports disk settings dir) (upon { disk := {} } disk) := by
  have there : disk.isDir dir = true := by rw [Disk.isDir, found]
  have made := disk.make_dirs_there dir folder found
  change batch { disk } settings dir dir = _
  simp only [batch, there, made]
  rfl

variable (room : ∀ input ∈ disk.list settings.convention dir, Room disk folder input)

include room

theorem batch_reachable
    (reachable : ∀ input ∈ disk.list settings.convention dir,
      Disk.Reachable (dir.join ⟨Document.nameFor input⟩) (Document.nameFor input)) :
    obey { disk } settings (.batch dir none) =
      (transcript dir (reports disk settings dir)).upon (documents folder (reports disk settings dir) disk) := by
  have filled := disk.filled_of_find dir folder found
  have inside := mem_of_reports disk settings dir
  rw [batch_begins disk settings dir folder found, transcript]
  by_cases nothing : (reports disk settings dir).isEmpty = true
  · rw [if_pos nothing, if_pos nothing, List.isEmpty_iff.mp nothing]
    rfl
  · rw [if_neg nothing, if_neg nothing]
    exact write_all_reachable _ dir folder filled _ _ disk found (fun entry member => room _ (inside entry member))
      fun entry member => reachable _ (inside entry member)

theorem batch_succeeds (succeeds : (obey { disk } settings (.batch dir none)).exitCode = 0) :
    ∀ input ∈ disk.list settings.convention dir,
      Disk.Reachable (dir.join ⟨Document.nameFor input⟩) (Document.nameFor input) := by
  have filled := disk.filled_of_find dir folder found
  have inside := mem_of_reports disk settings dir
  intro input listed
  rw [← reports_listed] at listed
  obtain ⟨entry, member, rfl⟩ := List.mem_map.mp listed
  have some : ¬ (reports disk settings dir).isEmpty = true := by simpa using List.ne_nil_of_mem member
  rw [batch_begins disk settings dir folder found, if_neg some] at succeeds
  exact write_all_succeeds _ dir folder filled _ _ disk found (fun entry member => room _ (inside entry member))
    succeeds entry member

end

theorem render_reachable (disk : Disk) (settings : Settings) (dir input : Path) (folder : Location) (stem : Text)
    (found : disk.find? dir = some (folder, .dir)) (listed : Listed disk dir folder input stem)
    (room : Room disk folder input)
    (reachable : Disk.Reachable (dir.join ⟨Document.nameFor input⟩) (Document.nameFor input)) :
    let alone := obey { disk } settings (.render input none none false)
    alone.exitCode = 0 ∧
      alone.disk = disk.put (Document.placeFor folder input)
        (.file (Disk.encode (Report.ofFile (disk.source settings.convention) settings input).document)) := by
  have filled := disk.filled_of_find dir folder found
  obtain ⟨parent, beside, shortens⟩ := dir.join_sibling filled _ listed.named (Document.nameFor input)
  rw [← listed.spelled] at beside
  have shorter := Disk.reachable_shorter dir parent filled shortens _ room.named reachable
  let report := Report.ofFile (disk.source settings.convention) settings input
  let told := (⟨{}, [], [], 0⟩ : Session).complainOf input report
  let say := fun session : Session => session.print (written (input.sibling (Document.nameFor input)) report)
  have done := write_reachable told disk dir parent folder found shortens _ report.document room.named room.writable say
    shorter
  have same : { settings with searchDir := none.or settings.searchDir, title := settings.title && !false } = settings := by
    simp
  have alone : obey { disk } settings (.render input none none false) =
      (told.upon disk).write (parent.join ⟨Document.nameFor input⟩) report.document say := by
    rw [← complain_of_upon, ← beside]
    change render { disk } { settings with searchDir := none.or settings.searchDir, title := settings.title && !false }
      input none = _
    rw [same]
    rfl
  intro session
  have whole : session = _ := alone.trans done
  rw [whole]
  exact ⟨complain_of_code _ input report, rfl⟩

end Session

section

variable (disk : Disk) (proper : disk.Proper) (convention : Convention) (dir : Path) (folder : Location)
  (found : disk.find? dir = some (folder, .dir))

include proper found

theorem places_distinct : ((disk.list convention dir).map (Document.placeFor folder)).Nodup := by
  rw [Disk.list, found]
  simp only [List.map_map]
  refine List.Nodup.map_on ?_ ((disk.file_names_nodup proper.toTree folder).filter _)
  intro first one second two same
  have names : Document.nameFor (dir.join ⟨first⟩) = Document.nameFor (dir.join ⟨second⟩) := by
    simpa [Document.placeFor] using same
  obtain ⟨stem, spelled, listed⟩ := Listed.of_name proper found convention first one
  obtain ⟨other, otherSpelled, otherListed⟩ := Listed.of_name proper found convention second two
  rw [listed.document, otherListed.document] at names
  rw [spelled, otherSpelled, List.append_cancel_right names]

-- A schema file is no document.
theorem schema_place (input : Path) (listed : input ∈ disk.list convention dir) (entry : Location × Node)
    (there : disk.find? input = some entry) : Disk.isDocument entry.1 = false := by
  have itself := dir.shortens_itself (disk.filled_of_find dir folder found)
  rw [Disk.list, found] at listed
  obtain ⟨name, inside, rfl⟩ := List.mem_map.mp listed
  obtain ⟨named, other⟩ := Disk.admitted_named proper convention folder name inside
  obtain ⟨-, content, file⟩ := (Disk.mem_admitted proper convention folder name).mp inside
  obtain ⟨-, rfl⟩ := (disk.find_joined dir dir folder found itself name named content file entry).mp there
  exact other

theorem schema_apart (input : Path) (listed : input ∈ disk.list convention dir) (entry : Location × Node)
    (there : disk.find? input = some entry) : entry.1 ∉ (disk.list convention dir).map (Document.placeFor folder) := by
  intro member
  obtain ⟨other, among, same⟩ := List.mem_map.mp member
  obtain ⟨stem, schema⟩ := Listed.of_member proper found convention among
  have ends := schema.is_document
  rw [same, schema_place disk proper convention dir folder found input listed entry there] at ends
  contradiction

theorem room_of_listed (plain : ∀ name, Text.endsWith ".md" name = true → disk.Writable (folder ++ [name]))
    (input : Path) (listed : input ∈ disk.list convention dir) : Room disk folder input := by
  obtain ⟨stem, known⟩ := Listed.of_member proper found convention listed
  exact ⟨known.document_named, known.is_document, plain _ known.document_ends⟩

end

theorem reports_of_alike (disk other : Disk) (alike : disk.Alike other) (first : disk.Proper) (second : other.Proper)
    (settings : Settings) (dir : Path) : Session.reports other settings dir = Session.reports disk settings dir := by
  have same : (other.source settings.convention).list dir = (disk.source settings.convention).list dir :=
    (alike.list first second settings.convention dir).symm
  rw [Session.reports, Session.reports, Report.ofDirectory, Report.ofDirectory, same]
  apply List.map_congr_left
  intro input listed
  rw [alike.report first second settings dir input listed]

section

variable (disk earlier : Disk) (settings : Settings) (dir : Path) (folder : Location) (proper : disk.Proper)
  (found : disk.find? dir = some (folder, .dir))
  (plain : ∀ name, Text.endsWith ".md" name = true → disk.Writable (folder ++ [name]))
  (succeeds : (Session.obey { disk } settings (.batch dir none)).exitCode = 0)

theorem reports_places :
    (Session.reports disk settings dir).map (fun entry => Document.placeFor folder entry.1) =
      (disk.list settings.convention dir).map (Document.placeFor folder) := by
  rw [← Session.reports_listed, List.map_map]
  rfl

include proper found

-- Each input has its document among those of a batch.
theorem document_of_listed (input : Path) (listed : input ∈ disk.list settings.convention dir) :
    (documents folder (Session.reports disk settings dir) earlier).node? (Document.placeFor folder input) =
      some (.file (Disk.encode (Report.ofFile (disk.source settings.convention) settings input).document)) := by
  have distinct := places_distinct disk proper settings.convention dir folder found
  rw [← reports_places] at distinct
  exact documents_at folder _ earlier distinct input _ (List.mem_map_of_mem listed)

include plain succeeds

-- Over every disk like the first one a batch says the same and puts the same documents.
theorem batch_of_alike (other : earlier.Proper) (alike : disk.Alike earlier) :
    Session.obey { disk := earlier } settings (.batch dir none) =
      (Session.transcript dir (Session.reports disk settings dir)).upon
        (documents folder (Session.reports disk settings dir) earlier) := by
  have room := room_of_listed disk proper settings.convention dir folder found plain
  have reachable := Session.batch_succeeds disk settings dir folder found room succeeds
  have same := alike.list proper other settings.convention dir
  rw [← reports_of_alike disk earlier alike proper other]
  exact Session.batch_reachable earlier settings dir folder (alike.find_dir dir folder found)
    (fun input listed => (room input (same ▸ listed)).kept alike) fun input listed => reachable input (same ▸ listed)

theorem render_of_alike (other : earlier.Proper) (alike : disk.Alike earlier) (input : Path)
    (listed : input ∈ disk.list settings.convention dir) :
    let alone := Session.obey { disk := earlier } settings (.render input none none false)
    alone.exitCode = 0 ∧
      alone.disk = earlier.put (Document.placeFor folder input)
        (.file (Disk.encode (Report.ofFile (disk.source settings.convention) settings input).document)) := by
  have room := room_of_listed disk proper settings.convention dir folder found plain
  have reachable := Session.batch_succeeds disk settings dir folder found room succeeds
  have foundThere := alike.find_dir dir folder found
  have listedThere := listed
  rw [alike.list proper other] at listedThere
  obtain ⟨stem, known⟩ := Listed.of_member other foundThere settings.convention listedThere
  rw [alike.report proper other settings dir input listed]
  exact Session.render_reachable earlier settings dir input folder stem foundThere known
    ((room input listed).kept alike) (reachable input listed)

end

-- Two schema files, one of them without a name of its own, and a document of an earlier run.
def shelf : Disk where
  entries := [(["d"], .dir), (["d", "a.cds"], .file (Disk.encode "entity A\x7bx:q.B;\x7d")),
    (["d", ".cds"], .file (Disk.encode "namespace q;entity B\x7b\x7d")), (["d", "a.md"], .file (Disk.encode "old"))]

theorem shelf_proper : shelf.Proper where
  distinct := by decide
  rooted := by
    intro entry member
    simp only [shelf, List.mem_cons, List.not_mem_nil, or_false] at member
    rcases member with rfl | rfl | rfl | rfl <;> exact ⟨by simp, rfl⟩
  short := by decide
  here := rfl
  slashless := by decide

theorem shelf_found : shelf.find? ⟨['d']⟩ = some ([['d']], .dir) :=
  shelf.find_dir shelf_proper.toTree [] ['d'] (by decide) (by decide) rfl

theorem shelf_plain (name : Text) (ends : Text.endsWith ".md" name = true) : shelf.Writable ([['d']] ++ [name]) := by
  by_cases old : name = "a.md"
  · exact .inr ⟨_, by rw [old]; rfl⟩
  · have schema : "a.cds".toList ≠ name ∧ ".cds".toList ≠ name := by
      constructor <;> rintro rfl <;> contradiction
    left
    simpa [Disk.node?, shelf] using ⟨schema.1, schema.2, Ne.symm old⟩

theorem shelf_listed (input : Path) :
    input ∈ shelf.list .plain ⟨['d']⟩ ↔ input = ⟨"d/a.cds"⟩ ∨ input = ⟨"d/.cds"⟩ := by
  have names (name : Text) : name ∈ (shelf.fileNames [['d']]).filter Convention.plain.admits ↔
      name = "a.cds" ∨ name = ".cds" := by
    rw [Disk.mem_admitted shelf_proper]
    constructor
    · rintro ⟨admitted, content, there⟩
      have entry := shelf.entry_of_node _ _ (by simp) there
      simp only [shelf, List.mem_cons, List.not_mem_nil, or_false] at entry
      rcases entry with same | same | same | same
      · cases same
      · cases same
        exact .inl rfl
      · cases same
        exact .inr rfl
      · cases same
        contradiction
    · rintro (rfl | rfl)
      · exact ⟨by decide, _, rfl⟩
      · exact ⟨by decide, _, rfl⟩
  rw [Disk.list, shelf_found]
  simp only [List.mem_map, names]
  constructor
  · rintro ⟨name, rfl | rfl, rfl⟩
    · exact .inl rfl
    · exact .inr rfl
  · rintro (rfl | rfl)
    · exact ⟨_, .inl rfl, rfl⟩
    · exact ⟨_, .inr rfl, rfl⟩

theorem shelf_batch : (Session.obey { disk := shelf } {} (.batch ⟨['d']⟩ none)).exitCode = 0 := by
  have room := room_of_listed shelf shelf_proper .plain ⟨['d']⟩ [['d']] shelf_found shelf_plain
  rw [Session.batch_reachable shelf {} ⟨['d']⟩ [['d']] shelf_found room]
  · exact Session.transcript_code _ _
  · intro input listed
    rcases (shelf_listed input).mp listed with rfl | rfl
    · exact ⟨by decide, by decide⟩
    · exact ⟨by decide, by decide⟩

end SchemaDiagram
