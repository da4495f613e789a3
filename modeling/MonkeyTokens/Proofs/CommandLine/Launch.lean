import Mathlib
import MonkeyTokens.CommandLine.Program
import MonkeyTokens.Proofs.CommandLine.Choices
import MonkeyTokens.Proofs.CommandLine.Outcome
import MonkeyTokens.Proofs.Directory

/-!
# What decides about a run of the program

Of its services the program relies on this (`Services.Reliable`): words that make choices are
understood as these choices, a log that is started is reliable, and why it cannot be started is said
in one line. Whatever the filter of the log lets through, the program started with words that make
some choices then shows the session on the chosen file (`Launch.ends_allAtOnce`), or on its standard
input if no file was chosen (`Launch.ends_lineByLine`), and only fails if the file cannot be opened
(`Launch.ends_opening`). The log shows this run through the filter that the environment sets, or
else through one of the program (`Launch.logs_of_chooses`). Nothing else that the program was
started with makes a difference to its output, to its exit code and to what it tells of a failure
(`Launch.run_of_chooses`).

The services that the program has in a directory are reliable (`World.reliable_services`).
-/

namespace MonkeyTokens

open Text

namespace Session

private theorem carryOut_allAtOnce (r : Reader) {cs : List Char} (h : Decodes r.delivery.bytes cs) :
    ((allAtOnce r).carryOut {}).progress.sink.stored =
        (renderLines (tokenize (String.ofList cs)).dropLast).toUTF8 ∧
      ((allAtOnce r).carryOut {}).failure? =
        r.delivery.fault?.map fun f ↦ .source (.reading f) := by
  obtain ⟨hwritten, hresult⟩ := allAtOnce_eq r h
  obtain ⟨hrun, hstored⟩ := (allAtOnce r).carryOut_of_unfailing Sink.unfailing_default
  rw [dropLast_tokenize, String.toList_ofList, hstored, hwritten, Run.failure?, hrun, hresult]
  refine ⟨ByteArray.empty_append, ?_⟩
  cases r.delivery.fault? with
  | none | some => rfl

private theorem carryOut_lineByLine (prompt : String) (r : Reader) :
    ((lineByLine prompt r).carryOut {}).progress.sink.stored =
        (transcript prompt r.lines.lines).toUTF8 ∧
      ((lineByLine prompt r).carryOut {}).failure? = r.lines.fault?.map .input := by
  obtain ⟨hrun, hstored⟩ := (lineByLine prompt r).carryOut_of_unfailing Sink.unfailing_default
  rw [hstored, written_lineByLine, Run.failure?, hrun, (lineByLine_eq prompt r).2]
  refine ⟨ByteArray.empty_append, ?_⟩
  cases r.lines.fault? with
  | none | some => rfl

end Session

namespace CommandLine

/-! ### What is relied on -/

/-- What is relied on of the services. -/
structure Services.Reliable {Filter : Type} (services : Services Filter) : Prop where
  understands : ∀ words options, Chooses words options → services.understand words = .ok options
  logs : ∀ channel filter recorder, services.startLog channel filter = .ok recorder →
    recorder.Reliable channel
  tells : ∀ channel filter reason, services.startLog channel filter = .error reason →
    OneLine reason

/-- Whatever goes wrong with a file or with the input is told in one line. -/
structure Launch.OneLineFaults (l : Launch) : Prop where
  input : l.input.OneLineFaults
  opening : ∀ path f, l.openFile path = .error f → OneLine f.message
  reading : ∀ path file, l.openFile path = .ok file → file.OneLineFaults

namespace World

/-- In a directory, words are understood and the log is kept as it is relied on. -/
theorem reliable_services : services.Reliable where
  understands := by
    intro words options h
    simp only [services, ofWords_of_chooses h]
  logs := by
    rintro channel filter recorder ⟨⟩
    have hline {e : Event} {line : Channel × String}
        (h : line ∈ if filter.shows e then [(channel, e.line)] else []) :
        line = (channel, e.line) := by
      split at h
      · exact List.mem_singleton.mp h
      · cases h
    constructor
    · intro e line h
      rw [hline h]
    · intro e he line h
      rw [hline h]
      exact ⟨he.line, e.not_isPrefix_line⟩
  tells := by
    rintro channel filter reason ⟨⟩

/-- In a directory all faults are told in one line. -/
theorem oneLineFaults_launch (w : World) : w.launch.OneLineFaults where
  input := by
    intro f hf
    simp [launch, Reader.ofBytes] at hf
  opening := by
    intro path f h
    exact Directory.oneLine_of_openFile h
  reading := by
    intro path file h f hf
    rcases Directory.reads_of_openFile h with hreads | ⟨bytes, hreads⟩
    · rw [hreads, List.mem_singleton] at hf
      cases hf
      decide
    · simp [hreads] at hf

end World

/-! ### Runs of the program -/

private theorem Options.oneLineEvents_plan (options : Options) {l : Launch} (h : l.OneLineFaults) :
    (options.plan l).OneLineEvents := by
  unfold plan
  cases options.file? with
  | none => exact Session.oneLineEvents_lineByLine _ h.input
  | some path =>
    simp only
    cases hopen : l.openFile path with
    | ok file => exact (Session.oneLineEvents_allAtOnce (h.reading path file hopen)).forget
    | error f =>
      constructor
      · intro e he
        cases he
      · rintro failure ⟨⟩
        exact h.opening path f hopen

namespace Launch

/-- What there is to read at a path: the bytes of a file, with the fault that ends them if the file
cannot be read to its end, or why there is no file to be read. -/
def fileAt (l : Launch) (path : String) : Except Fault Delivery :=
  (l.openFile path).map Reader.delivery

private theorem fileAt_eq_ok_iff {l : Launch} {path : String} {d : Delivery} :
    l.fileAt path = .ok d ↔ ∃ file, l.openFile path = .ok file ∧ file.delivery = d := by
  unfold fileAt
  cases l.openFile path with
  | ok | error => simp [Except.map]

private theorem fileAt_eq_error_iff {l : Launch} {path : String} {f : Fault} :
    l.fileAt path = .error f ↔ l.openFile path = .error f := by
  unfold fileAt
  cases l.openFile path with
  | ok | error => simp [Except.map]

/-- Started like this, the program shows how a session went, and tells how it ended if all faults
are told in one line. -/
structure Ends {Filter α : Type} (l : Launch) (services : Services Filter) (run : Run α) :
    Prop where
  shows : (l.run services).Shows run
  tells : l.OneLineFaults → (l.run services).Tells run

private theorem Ends.congr {Filter α β : Type} {l : Launch} {services : Services Filter}
    {run : Run α} {other : Run β} (h : l.Ends services run)
    (hstored : other.progress.sink.stored = run.progress.sink.stored)
    (hfailure : other.failure? = run.failure?) : l.Ends services other where
  shows := h.shows.congr hstored hfailure
  tells hl := (h.tells hl).congr hfailure

/-- Started like this with a log, the program logs what that log shows of its run; without one it
tells why there is none. -/
structure Logs {Filter : Type} (l : Launch) (services : Services Filter) (options : Options)
    (log : Except String Recorder) : Prop where
  started : ∀ recorder, log = .ok recorder →
    let run := (options.plan l).carryOut {}
    (l.run services).log =
      recorder.lines (run.progress.log.toList ++ run.failure?.toList.map .gaveUp)
  notStarted : ∀ reason, log = .error reason →
    (l.run services).log = ["Failed to initialize logging: " ++ reason]

section

variable {Filter : Type} {services : Services Filter} (reliable : services.Reliable) {l : Launch}
  {options : Options} (h : Chooses l.words options)

include reliable h

private theorem run_of_ok {recorder : Recorder}
    (hstart : services.startLog .errors (services.filter options.verbose l.logSetting?) =
      .ok recorder) : l.run services = .ofPlan recorder [] (options.plan l) := by
  have hlog : services.setUpLog options.verbose l.logSetting? = .ok recorder := by
    rw [Services.setUpLog, hstart]
    rfl
  simp only [run, reliable.understands _ _ h, hlog]

private theorem run_of_error {reason : String}
    (hstart : services.startLog .errors (services.filter options.verbose l.logSetting?) =
      .error reason) : l.run services = .ofPlan (fun _ ↦ []) [noLog reason] (options.plan l) := by
  have hlog : services.setUpLog options.verbose l.logSetting? = .error (noLog reason) := by
    rw [Services.setUpLog, hstart]
    rfl
  simp only [run, reliable.understands _ _ h, hlog]

private theorem run_eq : ∃ recorder told, recorder.Reliable .errors ∧
    (∀ line ∈ told, IsAside line) ∧ l.run services = .ofPlan recorder told (options.plan l) := by
  cases hstart : services.startLog .errors (services.filter options.verbose l.logSetting?) with
  | ok recorder =>
    exact ⟨recorder, [], reliable.logs _ _ _ hstart, nofun, run_of_ok reliable h hstart⟩
  | error reason =>
    refine ⟨_, _, Recorder.reliable_nil, ?_, run_of_error reliable h hstart⟩
    simpa using isAside_noLog (reliable.tells _ _ _ hstart)

/-- What the program logs is told by its run and by the filter in use, which is that of the
environment if there is one. -/
theorem logs_of_chooses : l.Logs services options (services.startLog .errors
    ((services.filterOfSetting? l.logSetting?).getD
      (services.filterOf (if options.verbose then "debug" else "info")))) where
  started := by
    intro recorder hstart
    obtain ⟨-, -, hlog⟩ := Outcome.ofPlan_eq (reliable.logs _ _ _ hstart).routed [] (options.plan l)
    rw [run_of_ok reliable h hstart]
    exact hlog
  notStarted := by
    intro reason hstart
    obtain ⟨-, -, hlog⟩ := Outcome.ofPlan_eq Recorder.reliable_nil.routed [noLog reason]
      (options.plan l)
    have hsilent (events : List Event) : Recorder.lines (fun _ ↦ []) events = [] := by
      simp [Recorder.lines]
    rw [run_of_error reliable h hstart, hlog, hsilent]
    rfl

private theorem ends_plan : l.Ends services ((options.plan l).carryOut {}) := by
  obtain ⟨recorder, told, hrecorder, htold, hrun⟩ := run_eq reliable h
  constructor
  · rw [hrun]
    exact (Outcome.ofPlan_eq hrecorder.routed told _).1
  · intro hfaults
    rw [hrun]
    exact Outcome.tells_ofPlan hrecorder htold (options.oneLineEvents_plan hfaults)

/-- Where the chosen file can be opened, the program shows the session on any reader of it. -/
theorem ends_allAtOnce {path : String} (hpath : options.file? = some path) {file : Reader}
    (hfile : l.fileAt path = .ok file.delivery) :
    l.Ends services ((Session.allAtOnce file).carryOut {}) := by
  have hends := ends_plan reliable h
  obtain ⟨opened, hopen, hdelivery⟩ := fileAt_eq_ok_iff.mp hfile
  have hplan : options.plan l = (Session.allAtOnce opened).forget := by
    simp only [Options.plan, hpath, hopen, filePlan]
  rw [hplan] at hends
  -- the two readers may cut the file into reads in different ways
  obtain ⟨cs, hcs⟩ := Decodes.exists file.delivery.bytes
  have hfile := Session.carryOut_allAtOnce file hcs
  have hopened := Session.carryOut_allAtOnce opened (hdelivery ▸ hcs)
  have hforget := (Session.allAtOnce opened).carryOut_forget {}
  apply hends.congr
  · rw [hforget.1, hopened.1, hfile.1]
  · rw [hforget.2, hopened.2, hfile.2, hdelivery]

/-- Where the chosen file cannot be opened, the program only tells this. -/
theorem ends_opening {path : String} (hpath : options.file? = some path) {f : Fault}
    (hfile : l.fileAt path = .error f) :
    l.Ends services (⟨{ sink := {} }, .error (.opening path f)⟩ : Run Unit) := by
  have hends := ends_plan reliable h
  have hplan : options.plan l = failing (.opening path f) := by
    simp only [Options.plan, hpath, fileAt_eq_error_iff.mp hfile, filePlan]
  rw [hplan] at hends
  exact hends

/-- Where no file was chosen, the program shows the session on its input. -/
theorem ends_lineByLine (hnone : options.file? = none) :
    l.Ends services ((Session.lineByLine (options.prompt?.getD ">> ") l.input).carryOut {}) := by
  have hends := ends_plan reliable h
  simp only [Options.plan, hnone] at hends
  exact hends

private theorem run_congr {m : Launch} {others : Options} (hm : Chooses m.words others)
    (hplan : others.plan m = options.plan l) :
    (m.run services).output = (l.run services).output ∧
      (m.run services).exitCode = (l.run services).exitCode ∧
      (m.run services).errors = (l.run services).errors ∧
      (m.logSetting? = l.logSetting? → others.verbose = options.verbose →
        m.run services = l.run services) := by
  obtain ⟨recorder, told, hrecorder, -, hrun⟩ := run_eq reliable h
  obtain ⟨recorder', told', hrecorder', -, hrun'⟩ := run_eq reliable hm
  obtain ⟨hshows, herrors, -⟩ := Outcome.ofPlan_eq hrecorder.routed told (options.plan l)
  obtain ⟨hshows', herrors', -⟩ := Outcome.ofPlan_eq hrecorder'.routed told' (options.plan l)
  refine ⟨?_, ?_, ?_, ?_⟩
  · rw [hrun, hrun', hplan, hshows.output_eq, hshows'.output_eq]
  · rw [hrun, hrun', hplan, hshows.exitCode_eq, hshows'.exitCode_eq]
  · rw [hrun, hrun', hplan, herrors, herrors']
  · intro hlog hverbose
    unfold run
    rw [reliable.understands _ _ h, reliable.understands _ _ hm]
    simp only [hlog, hverbose, hplan]

end

/-- The program shows the session on the chosen file, whatever the reads are in which it is opened:
the tokens of its bytes are written, and the program fails if these cannot be read to the end. It
tells that a file cannot be opened. Without a file it shows the session on its input with the chosen
prompt. Its log on standard error shows this run. Started otherwise, but for the same file, or else
for the same prompt and input, it has the same output, the same exit code, and tells the same of a
failure; and if no more nor less is to be logged, all that it leaves behind is the same. -/
theorem run_of_chooses {Filter : Type} {services : Services Filter}
    (reliable : services.Reliable) {l : Launch} {options : Options}
    (h : Chooses l.words options) :
    let o := l.run services
    let prompt := options.prompt?.getD ">> "
    (∀ path, options.file? = some path →
      (∀ bytes fault? cs, l.fileAt path = .ok ⟨bytes, fault?⟩ → Decodes bytes cs →
        o.output = (Session.renderLines (tokenize (String.ofList cs)).dropLast).toUTF8 ∧
          o.exitCode = if fault?.isSome then 1 else 0) ∧
      (∀ file : Reader, l.fileAt path = .ok file.delivery →
        l.Ends services ((Session.allAtOnce file).carryOut {})) ∧
      ∀ f, l.fileAt path = .error f →
        l.Ends services (⟨{ sink := {} }, .error (.opening path f)⟩ : Run Unit)) ∧
    (options.file? = none →
      (∀ input, HasLines l.input.answers input →
        o.output = (Session.transcript prompt input.lines).toUTF8 ∧
          o.exitCode = if input.fault?.isSome then 1 else 0) ∧
      l.Ends services ((Session.lineByLine prompt l.input).carryOut {})) ∧
    l.Logs services options (services.startLog .errors
      ((services.filterOfSetting? l.logSetting?).getD
        (services.filterOf (if options.verbose then "debug" else "info")))) ∧
    ∀ (m : Launch) (others : Options), Chooses m.words others → others.file? = options.file? →
      (∀ path, options.file? = some path → m.openFile path = l.openFile path) →
      (options.file? = none → m.input = l.input ∧ others.prompt?.getD ">> " = prompt) →
      (m.run services).output = o.output ∧ (m.run services).exitCode = o.exitCode ∧
        (m.run services).errors = o.errors ∧
        (m.logSetting? = l.logSetting? → others.verbose = options.verbose →
          m.run services = o) := by
  intro o prompt
  refine ⟨?_, ?_, logs_of_chooses reliable h, ?_⟩
  · intro path hpath
    refine ⟨?_, fun file ↦ ends_allAtOnce reliable h hpath, fun f ↦ ends_opening reliable h hpath⟩
    intro bytes fault? cs hfile hcs
    obtain ⟨file, -, hdelivery⟩ := fileAt_eq_ok_iff.mp hfile
    have hends := ends_allAtOnce reliable h hpath (hdelivery ▸ hfile)
    have hbytes : file.delivery.bytes = bytes := congrArg Delivery.bytes hdelivery
    obtain ⟨hstored, hfailure⟩ := Session.carryOut_allAtOnce file (hbytes ▸ hcs)
    constructor
    · rw [hends.shows.output_eq, hstored]
    · rw [hends.shows.exitCode_eq, hfailure, Option.isSome_map, hdelivery]
  · intro hnone
    have hends := ends_lineByLine reliable h hnone
    refine ⟨?_, hends⟩
    intro input hinput
    obtain rfl := Reader.hasLines_iff.mp hinput
    obtain ⟨hstored, hfailure⟩ := Session.carryOut_lineByLine prompt l.input
    constructor
    · rw [hends.shows.output_eq, hstored]
    · rw [hends.shows.exitCode_eq, hfailure, Option.isSome_map]
  · intro m others hm hfile hopen hinput
    apply run_congr reliable h hm
    unfold Options.plan
    rw [hfile]
    cases hpath : options.file? with
    | none =>
      obtain ⟨hsame, hprompt⟩ := hinput hpath
      rw [hsame]
      exact congrArg (Session.lineByLine · l.input) hprompt
    | some path =>
      simp only [hopen path hpath]

/-- In a directory with one file, the program writes the tokens of that file; without one it holds
a session on its input; and it fails on the empty path, where there is no file. -/
theorem run_of_chooses_in_directory :
    let w : World :=
      { words := ["--prompt", "-", "-v", "--file=let.mk"], input := [98, 10]
        directory := ⟨[("let.mk", .file [108, 101, 116])]⟩, logSetting? := some "trace" }
    let v : World := { w with words := ["--prompt=$"] }
    let u : World := { w with words := ["--file", ""] }
    (Chooses w.words { file? := some "let.mk", prompt? := some "-", verbose := true } ∧
      w.run.output = "\x7bType:LET Literal:let Line:1 Column:3\x7d\n".toUTF8 ∧ w.run.exitCode = 0) ∧
    (Chooses v.words { prompt? := some "$" } ∧
      v.run.output = "$\x7bType:IDENT Literal:b Line:1 Column:2\x7d\n$".toUTF8 ∧
      v.run.exitCode = 0) ∧
    (Chooses u.words { file? := some "" } ∧ u.run.output = .empty ∧ u.run.exitCode = 1 ∧
      u.run.lastWords =
        ["Error: failed to open \"\": No such file or directory (os error 2)\n"]) := by
  intro w v u
  refine ⟨?_, ?_, ?_⟩
  · have hw : Chooses w.words { file? := some "let.mk", prompt? := some "-", verbose := true } :=
      ((Chooses.nothing.apart (o := .prompt) rfl (.inl rfl)).verbose rfl (.inl rfl)).joined
        (o := .file) "let.mk" rfl
    have hopen : w.launch.openFile "let.mk" = .ok (.ofBytes [108, 101, 116]) :=
      Directory.openFile_of_lookup (by decide) (by decide) (by decide) rfl
    have hfile : w.launch.fileAt "let.mk" = .ok ⟨[108, 101, 116], none⟩ :=
      fileAt_eq_ok_iff.mpr ⟨_, hopen, rfl⟩
    have hencoded : Utf8.encodeAll ['l', 'e', 't'] = [108, 101, 116] := by decide
    have hbytes : Decodes [108, 101, 116] ['l', 'e', 't'] := hencoded ▸ Decodes.encodeAll _
    have htokens : Session.renderLines (tokenize (String.ofList ['l', 'e', 't'])).dropLast =
        "\x7bType:LET Literal:let Line:1 Column:3\x7d\n" := by cbv
    obtain ⟨houtput, hexit⟩ := ((run_of_chooses World.reliable_services (l := w.launch) hw).1
      "let.mk" rfl).1 _ _ _ hfile hbytes
    rw [htokens] at houtput
    exact ⟨hw, houtput, hexit⟩
  · have hv : Chooses v.words { prompt? := some "$" } :=
      Chooses.nothing.joined (o := .prompt) "$" rfl
    have hline : "b\n".toUTF8.data.toList = [98, 10] := by decide
    have hcut : CutsLine [.ok 98, .ok 10] "b\n".toUTF8.data.toList none [] := by
      rw [hline]
      exact .feed (u := [98]) (by decide)
    have hlines : HasLines v.launch.input.answers ⟨["b\n"], none⟩ :=
      .line hcut (by simp) (by decide) (.ended (.last (u := []) (by decide)) (by simp))
    have htranscript : Session.transcript "$" ["b\n"] =
        "$\x7bType:IDENT Literal:b Line:1 Column:2\x7d\n$" := by cbv
    obtain ⟨houtput, hexit⟩ := ((run_of_chooses World.reliable_services (l := v.launch) hv).2.1
      rfl).1 _ hlines
    change v.run.output = (Session.transcript "$" ["b\n"]).toUTF8 at houtput
    rw [htranscript] at houtput
    exact ⟨hv, houtput, hexit⟩
  · have hu : Chooses u.words { file? := some "" } :=
      Chooses.nothing.apart (o := .file) rfl (.inr (by decide))
    obtain ⟨hshows, htells⟩ := ((run_of_chooses World.reliable_services (l := u.launch) hu).1
      "" rfl).2.2 .noSuchFile rfl
    exact ⟨hu, hshows.output_eq, hshows.exitCode_eq,
      (htells (World.oneLineFaults_launch u)).lastWords_eq⟩

end Launch
end CommandLine
end MonkeyTokens
