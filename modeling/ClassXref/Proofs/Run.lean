import ClassXref.Run
import ClassXref.Proofs.Collect.Walk
import ClassXref.Proofs.FileTree.Write

/-! What a run leaves behind. The report is made before anything is opened, and opening is the first step that
changes the world, so that a run which fails has changed nothing. A run that succeeds has written its report
once: to standard output, or to one file, and then no other file is other than before. Of the input only its
top can make a run fail. -/
namespace ClassXref

/-! ### The top of an input -/

namespace Collector

/-- An input that can be collected from: a folder, a class file, or an archive whose entries can be listed. -/
def Collectable (path : String) : FileTree → Prop
  | .folder _ => True
  | .file data => NamesClass path ∨ NamesArchive path ∧ ∃ entries, Archive.entries data = .ok entries
  | .lockedFile | .lockedFolder => False

variable {path : String} {node : FileTree} {obstacle : Obstacle}

theorem collect_eq_error (h : Meets (takeNode true path node) obstacle) :
    collect path node = .error obstacle := by
  rw [collect, EStateM.run, h {}]

/-- Whatever lies in it, a folder is collected from. -/
theorem exists_adds_folder (h : FileTree.pathFlaw? path = none) (entries : List (String × FileTree)) :
    ∃ part, Adds (takeNode true path (.folder entries)) part := by
  rw [takeNode_folder h]
  exact exists_adds_forM fun entry _ => (settled_takeNode entry.2 false _).orFailure _

theorem not_namesArchive (hclass : NamesClass path) : ¬ NamesArchive path := by
  unfold NamesClass at hclass
  intro harchive
  rw [NamesArchive, hclass] at harchive
  exact absurd harchive (by decide)

/-- An input that cannot be read is refused, whatever its extension. -/
theorem exists_meets_takeFile (path : String) (error : SystemError) :
    ∃ obstacle, Meets (takeFile true path (.error error)) obstacle := by
  rcases names_cases path with hclass | harchive | hother
  · rw [takeFile_class hclass]
    exact ⟨_, meets_throw _⟩
  · rw [takeFile_archive harchive]
    exact ⟨_, meets_throw _⟩
  · rw [takeFile_other hother]
    exact ⟨_, meets_throw _⟩

/-- A file is collected from or refused by its extension, and an archive by the list of its entries. -/
theorem adds_or_meets_file (path : String) (data : ByteArray) :
    Collectable path (.file data) ∧ (∃ part, Adds (takeFile true path (.ok data)) part) ∨
      ¬ Collectable path (.file data) ∧ ∃ obstacle, Meets (takeFile true path (.ok data)) obstacle := by
  rcases names_cases path with hclass | harchive | hother
  · rw [takeFile_class hclass]
    exact Or.inl ⟨Or.inl hclass, _, adds_addClass path data⟩
  · rw [takeFile_archive harchive]
    rcases settled_takeArchive path data with ⟨entries, _, hentries, -, hadds⟩ | ⟨flaw, hflaw, hmeets⟩
    · exact Or.inl ⟨Or.inr ⟨harchive, entries, hentries⟩, _, hadds⟩
    · refine Or.inr ⟨?_, _, hmeets⟩
      rintro (hclass | ⟨-, entries, hentries⟩)
      · exact not_namesArchive hclass harchive
      · rw [hflaw] at hentries
        cases hentries
  · rw [takeFile_other hother]
    refine Or.inr ⟨?_, _, meets_throw _⟩
    rintro (hclass | ⟨harchive, -⟩)
    · exact hother.1 hclass
    · exact hother.2 harchive

/-- An input is collected from or refused, and its top alone decides which. -/
theorem adds_or_meets (h : FileTree.pathFlaw? path = none) (node : FileTree) :
    Collectable path node ∧ (∃ part, Adds (takeNode true path node) part) ∨
      ¬ Collectable path node ∧ ∃ obstacle, Meets (takeNode true path node) obstacle := by
  cases node with
  | folder entries => exact Or.inl ⟨trivial, exists_adds_folder h entries⟩
  | lockedFolder => exact Or.inr ⟨id, _, meets_lockedFolder h⟩
  | lockedFile =>
    have hfile : FileTree.fileAt? path .lockedFile = some (.error .accessDenied) := by
      simp only [FileTree.fileAt?, h]
    rw [takeNode_of_fileAt? hfile]
    exact Or.inr ⟨id, exists_meets_takeFile path _⟩
  | file data =>
    have hfile : FileTree.fileAt? path (.file data) = some (.ok data) := by
      simp only [FileTree.fileAt?, h]
    rw [takeNode_of_fileAt? hfile]
    exact adds_or_meets_file path data

theorem exists_collect_eq_ok_iff (h : FileTree.pathFlaw? path = none) (node : FileTree) :
    (∃ found, collect path node = .ok found) ↔ Collectable path node := by
  rcases adds_or_meets h node with ⟨hcollectable, part, hadds⟩ | ⟨hrefused, obstacle, hmeets⟩
  · exact ⟨fun _ => hcollectable, fun _ => ⟨_, collect_eq_ok hadds⟩⟩
  · refine ⟨?_, fun hcollectable => absurd hcollectable hrefused⟩
    rintro ⟨found, hfound⟩
    rw [collect_eq_error hmeets] at hfound
    cases hfound

end Collector

/-! ### Making the report -/

theorem FileTree.flawless_of_find {files node : FileTree} {path : String}
    (h : files.find path = .ok node) : FileTree.pathFlaw? path = none := by
  cases hflaw : FileTree.pathFlaw? path with
  | none => rfl
  | some error =>
    simp only [FileTree.find, hflaw] at h
    cases h

namespace Run

open CommandLine (Arguments)
open Collector (Collectable)

variable {files : FileTree} {arguments : Arguments}

/-- What a run goes by can be found out: there is a configuration, it leaves a thread to work with, and an
address for traces, where one is given, is an address. -/
def Settled (files : FileTree) (arguments : Arguments) : Prop :=
  ∃ config, Run.config files.find arguments = .ok config ∧
    arguments.threads.or config.threads ≠ some 0 ∧
    ∀ address, arguments.otelEndpoint.or config.otelEndpoint = some address →
      ∃ url, Endpoint.normalize address = .ok url

theorem mapError_eq_ok_iff {ε δ α : Type} {v : Except ε α} {f : ε → δ} {a : α} :
    v.mapError f = .ok a ↔ v = .ok a := by
  cases v with
  | ok b => simp [Except.mapError]
  | error e => simp [Except.mapError]

theorem exists_resolve_eq_ok_iff {config : Config} {names : List String} {threads : Option Nat}
    {endpoint : Option String} :
    (∃ s, Settings.resolve config names threads endpoint = .ok s) ↔ threads.or config.threads ≠ some 0 := by
  unfold Settings.resolve
  dsimp only
  split
  · next hzero =>
    constructor
    · rintro ⟨s, h⟩
      cases h
    · exact fun hne => absurd hzero hne
  · next hne => exact iff_of_true ⟨_, rfl⟩ hne

theorem otelEndpoint_of_resolve {config : Config} {names : List String} {threads : Option Nat}
    {endpoint : Option String} {s : Settings} (h : Settings.resolve config names threads endpoint = .ok s) :
    s.otelEndpoint = endpoint.or config.otelEndpoint := by
  unfold Settings.resolve at h
  dsimp only at h
  split at h
  · cases h
  · cases h
    rfl

theorem exists_settings_eq_ok_iff :
    (∃ s, Run.settings files.find arguments = .ok s) ↔ Settled files arguments := by
  unfold Run.settings Settled
  constructor
  · rintro ⟨s, h⟩
    obtain ⟨config, hconfig, h⟩ := Stateful.verdict_bind_eq_ok_iff.mp h
    obtain ⟨resolved, hresolved, h⟩ := Stateful.verdict_bind_eq_ok_iff.mp h
    rw [mapError_eq_ok_iff] at hresolved
    refine ⟨config, hconfig, exists_resolve_eq_ok_iff.mp ⟨_, hresolved⟩, fun address haddress => ?_⟩
    rw [otelEndpoint_of_resolve hresolved, haddress] at h
    obtain ⟨url, hurl, -⟩ := Stateful.verdict_bind_eq_ok_iff.mp h
    exact ⟨url, mapError_eq_ok_iff.mp hurl⟩
  · rintro ⟨config, hconfig, hthreads, hendpoint⟩
    obtain ⟨resolved, hresolved⟩ := exists_resolve_eq_ok_iff.mpr hthreads
    refine ⟨resolved, Stateful.verdict_bind_eq_ok_iff.mpr ⟨config, hconfig, ?_⟩⟩
    refine Stateful.verdict_bind_eq_ok_iff.mpr ⟨resolved, mapError_eq_ok_iff.mpr hresolved, ?_⟩
    rw [otelEndpoint_of_resolve hresolved]
    cases haddress : arguments.otelEndpoint.or config.otelEndpoint with
    | none => rfl
    | some address =>
      obtain ⟨url, hurl⟩ := hendpoint address haddress
      exact Stateful.verdict_bind_eq_ok_iff.mpr ⟨url, mapError_eq_ok_iff.mpr hurl, rfl⟩

/-- There is a report: the input is found and can be collected from, and it can be found out what to go by. -/
theorem exists_report_eq_ok_iff :
    (∃ report, Run.report files.find arguments = .ok report) ↔
      (∃ node, files.find arguments.input = .ok node ∧ Collectable arguments.input node) ∧
        Settled files arguments := by
  unfold Run.report
  cases hfind : files.find arguments.input with
  | error error => simp
  | ok node =>
    have hcollect := Collector.exists_collect_eq_ok_iff (FileTree.flawless_of_find hfind) node
    constructor
    · rintro ⟨report, h⟩
      obtain ⟨s, hsettings, h⟩ := Stateful.verdict_bind_eq_ok_iff.mp h
      obtain ⟨found, hfound, -⟩ := Stateful.verdict_bind_eq_ok_iff.mp h
      exact ⟨⟨node, rfl, hcollect.mp ⟨found, mapError_eq_ok_iff.mp hfound⟩⟩,
        exists_settings_eq_ok_iff.mp ⟨s, hsettings⟩⟩
    · rintro ⟨⟨found, hfound, hcollectable⟩, hsettled⟩
      cases hfound
      obtain ⟨found, hfound⟩ := hcollect.mpr hcollectable
      obtain ⟨s, hsettings⟩ := exists_settings_eq_ok_iff.mpr hsettled
      let indexed := Batch.run (.empty s.namespaces) found
      refine ⟨indexed.1.report indexed.2 arguments.questions,
        Stateful.verdict_bind_eq_ok_iff.mpr ⟨s, hsettings, ?_⟩⟩
      exact Stateful.verdict_bind_eq_ok_iff.mpr ⟨found, mapError_eq_ok_iff.mpr hfound, rfl⟩

/-! ### Writing it -/

/-- The world after a text was written, once and to one place. -/
inductive Delivered (files : FileTree) (text : String) : Destination → World → Prop
  | standardOutput : Delivered files text .standardOutput { files, standardOutput := text }
  | file {path : String} {names : List String} {after : FileTree} : files.target path = .ok names →
      files.Wrote after names text.toUTF8 → after.read path = .ok text.toUTF8 →
        Delivered files text (.file path) { files := after }

variable {path text : String} {names : List String} {report : Report}

theorem openOutput_of_error {error : SystemError} (h : files.target path = .error error) :
    openOutput (.file path) { files } = .error (.outputRefused path error) { files } := by
  have hcreate : files.create path = .error error := by
    rw [FileTree.create, h]
    rfl
  rw [openOutput, Stateful.get_bind]
  dsimp only
  rw [hcreate]
  rfl

/-- What is opened is empty. -/
theorem openOutput_of_ok (h : files.target path = .ok names) :
    openOutput (.file path) { files } = .ok (.file names) { files := files.put names (.file .empty) } := by
  have hcreate : files.create path = .ok (names, files.put names (.file .empty)) := by
    rw [FileTree.create, h]
    rfl
  rw [openOutput, Stateful.get_bind]
  dsimp only
  rw [hcreate]
  rfl

/-- A text goes behind what has been written to the file. -/
theorem write_file (text : String) (files : FileTree) (names : List String) (written : ByteArray) :
    write text (.file names) { files := files.put names (.file written) } =
      .ok () { files := files.put names (.file (written ++ text.toUTF8)) } := by
  have happend : (files.put names (.file written)).append names text.toUTF8 =
      files.put names (.file (written ++ text.toUTF8)) := by
    rw [FileTree.append, FileTree.get?_put_self]
    exact FileTree.put_put files names _ _
  rw [← happend]
  rfl

theorem toUTF8_text (report : Report) :
    report.text.toUTF8 = ByteArray.empty ++ report.toJson.pretty.toUTF8 ++ "\n".toUTF8 := by
  rw [ByteArray.empty_append]
  exact String.toByteArray_push

theorem perform_of_error {error : RunError} (h : Run.report files.find arguments = .error error) :
    perform arguments { files } = .error error { files } := by
  rw [perform, Stateful.get_bind, h]
  rfl

/-- Behind the report, a run opens what the report goes to, and writes. -/
theorem perform_of_ok (h : Run.report files.find arguments = .ok report) :
    perform arguments { files } = (do
      let output ← openOutput (destination arguments)
      write report.toJson.pretty output
      write "\n" output
      return report : Action Report) { files } := by
  rw [perform, Stateful.get_bind, h]
  rfl

theorem perform_standardOutput (h : Run.report files.find arguments = .ok report)
    (hdestination : destination arguments = .standardOutput) :
    perform arguments { files } = .ok report { files, standardOutput := report.text } := by
  rw [perform_of_ok h, hdestination]
  have htext : report.text = "" ++ report.toJson.pretty ++ "\n" := by
    rw [String.empty_append]
    rfl
  rw [htext]
  rfl

theorem perform_refused {error : SystemError} (h : Run.report files.find arguments = .ok report)
    (hdestination : destination arguments = .file path) (htarget : files.target path = .error error) :
    perform arguments { files } = .error (.outputRefused path error) { files } := by
  rw [perform_of_ok h, hdestination]
  exact Stateful.bind_error (openOutput_of_error htarget)

theorem perform_file (h : Run.report files.find arguments = .ok report)
    (hdestination : destination arguments = .file path) (htarget : files.target path = .ok names) :
    perform arguments { files } =
      .ok report { files := files.put names (.file report.text.toUTF8) } := by
  rw [perform_of_ok h, hdestination, Stateful.bind_ok (openOutput_of_ok htarget),
    Stateful.bind_ok (write_file _ files names _), Stateful.bind_ok (write_file _ files names _), toUTF8_text]
  rfl

/-- What a run needs: an input that can be collected from, something to go by, and an output that can be
opened. -/
structure Ready (files : FileTree) (arguments : Arguments) : Prop where
  input : ∃ node, files.find arguments.input = .ok node ∧ Collectable arguments.input node
  settled : Settled files arguments
  output : ∀ path, destination arguments = .file path → ∃ names, files.target path = .ok names

/-- A run fails and changes nothing, or makes its report and delivers it. -/
theorem perform_cases (files : FileTree) (arguments : Arguments) :
    (¬ Ready files arguments ∧ ∃ error, perform arguments { files } = .error error { files }) ∨
      Ready files arguments ∧ ∃ report after, Run.report files.find arguments = .ok report ∧
        perform arguments { files } = .ok report after ∧
          Delivered files report.text (destination arguments) after := by
  cases hreport : Run.report files.find arguments with
  | error error =>
    refine Or.inl ⟨fun hready => ?_, error, perform_of_error hreport⟩
    obtain ⟨report, h⟩ := exists_report_eq_ok_iff.mpr ⟨hready.input, hready.settled⟩
    rw [hreport] at h
    cases h
  | ok report =>
    obtain ⟨hinput, hsettled⟩ := exists_report_eq_ok_iff.mp ⟨report, hreport⟩
    cases hdestination : destination arguments with
    | standardOutput =>
      refine Or.inr ⟨⟨hinput, hsettled, fun path hpath => ?_⟩, report, _, rfl,
        perform_standardOutput hreport hdestination, .standardOutput⟩
      rw [hdestination] at hpath
      cases hpath
    | file path =>
      cases htarget : files.target path with
      | error error =>
        refine Or.inl ⟨fun hready => ?_, _, perform_refused hreport hdestination htarget⟩
        obtain ⟨names, hnames⟩ := hready.output path hdestination
        rw [htarget] at hnames
        cases hnames
      | ok names =>
        have hwrote := FileTree.wrote_put htarget report.text.toUTF8
        refine Or.inr ⟨⟨hinput, hsettled, fun other hother => ?_⟩, report, _, rfl,
          perform_file hreport hdestination htarget, .file htarget hwrote (hwrote.read htarget)⟩
        rw [hdestination] at hother
        cases hother
        exact ⟨names, htarget⟩

end Run
end ClassXref
