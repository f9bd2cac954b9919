import ByteMachine.CommandLine.Session
import ByteMachine.Proofs.Console
import ByteMachine.Proofs.Placement

/-!
What the program answers. Whether it runs depends on the contents of two files alone, and what it
writes when it runs is told by the run.
-/

namespace ByteMachine

/-! ### Registers as text -/

lemma Report.lines_eq (r : Report) :
    r.lines = "Execution finished." :: List.ofFn fun k : Fin 8 =>
      "r" ++ toString k.val ++ " = " ++ toString r.registers.values[k].toNat := by
  rw [Report.lines]
  congr 1
  refine List.ext_getElem (by simp) fun k hk hk' => ?_
  simp only [List.getElem_mapIdx, List.getElem_ofFn, Registers.toList, Vector.getElem_toList]
  rfl

namespace CommandLine

/-! ### The files -/

/-- The settings that a file gives, or those that stand when none is named. A file has to be the
text of settings, and these have to keep their bounds. -/
inductive Gives (files : Files) : Option String → Config → Prop
  | defaults : Gives files none {}
  | file {path : String} {bytes : Array UInt8} {text : String} {c : Config}
      (contents : files path = .ok bytes) (decoded : String.fromUTF8? ⟨bytes⟩ = some text)
      (read : Config.readWhole text.toList = .ok c) (valid : c.IsValid) :
      Gives files (some path) c

/-- The file is a program image: it has a header with the mark. -/
def IsImage (file : Array UInt8) : Prop := 28 ≤ file.size ∧ file.toList.take 3 = mark

variable {files : Files} {o : Options} {c : Config} {file : Array UInt8}

lemma ofFile_eq_ok_iff {path : String} {contents : Except ReadFailure (Array UInt8)} :
    Config.ofFile path contents = .ok c ↔ ∃ bytes text, contents = .ok bytes ∧
      String.fromUTF8? ⟨bytes⟩ = some text ∧ Config.readWhole text.toList = .ok c ∧ c.IsValid := by
  constructor
  · intro h
    rcases contents with e | bytes
    · cases h
    · rcases htext : String.fromUTF8? ⟨bytes⟩ with _ | text
      · simp only [Config.ofFile, htext] at h
        cases h
      · simp only [Config.ofFile, htext] at h
        exact ⟨bytes, text, rfl, htext, Config.ofText_eq_ok_iff.1 h⟩
  · rintro ⟨bytes, text, rfl, htext, hsettings⟩
    simp only [Config.ofFile, htext]
    exact Config.ofText_eq_ok_iff.2 hsettings

lemma fileConfig_eq_ok_iff : o.fileConfig files = .ok c ↔ Gives files o.config c := by
  rw [Options.fileConfig]
  rcases o.config with _ | path
  · rw [Except.ok.injEq]
    exact ⟨fun h => h ▸ .defaults, fun h => by cases h; rfl⟩
  · dsimp only
    rw [ofFile_eq_ok_iff]
    constructor
    · rintro ⟨bytes, text, hbytes, htext, hread, hvalid⟩
      exact .file hbytes htext hread hvalid
    · rintro (_ | ⟨hbytes, htext, hread, hvalid⟩)
      exact ⟨_, _, hbytes, htext, hread, hvalid⟩

lemma exists_load_iff {s : Simulator} : (∃ r, s.load file = .ok r) ↔ IsImage file := by
  rw [Simulator.load]
  rcases hi : s.machine.install file with e | i
  · constructor
    · rintro ⟨r, hr⟩
      cases hr
    · intro h
      rw [Machine.install_eq_ok_iff.2 ⟨h.1, h.2, rfl⟩] at hi
      cases hi
  · obtain ⟨hsize, hmark, -⟩ := Machine.install_eq_ok_iff.1 hi
    exact ⟨fun _ => ⟨hsize, hmark⟩, fun _ => ⟨_, rfl⟩⟩

/-! ### Answers -/

/-- Both files are there, and neither is rejected. -/
structure Accepted (files : Files) (o : Options) : Prop where
  config : ∃ c, Gives files o.config c
  program : ∃ file, files o.program = .ok file ∧ IsImage file

variable {setting : Option String} {s : Simulator} {loading : List Effect}

/-- Without both files there is nothing but a message. -/
lemma respond_of_not_accepted (h : ¬ Accepted files o) (setting : Option String) :
    ∃ message, o.respond files setting = failed message := by
  rw [Options.respond]
  rcases hc : o.fileConfig files with e | c
  · exact ⟨_, rfl⟩
  · dsimp only
    rcases hload : (Simulator.ofConfig (o.override c)).loadFile o.program (files o.program) with
      e | r
    · exact ⟨_, rfl⟩
    · refine absurd ⟨⟨c, fileConfig_eq_ok_iff.1 hc⟩, ?_⟩ h
      rcases hfile : files o.program with e | file
      · rw [hfile] at hload
        cases hload
      · rw [hfile] at hload
        exact ⟨file, rfl, exists_load_iff.1 ⟨r, hload⟩⟩

lemma respond_of_load (hc : Gives files o.config c) (hfile : files o.program = .ok file)
    (hload : (Simulator.ofConfig (o.override c)).load file = .ok (s, loading)) :
    o.respond files setting =
      if o.Has .disassemble then list (o.threshold setting) s loading
      else execute o (o.threshold setting) s loading := by
  have hload' : (Simulator.ofConfig (o.override c)).loadFile o.program (files o.program) =
      .ok (s, loading) := by
    rw [hfile]
    exact hload
  rw [Options.respond, fileConfig_eq_ok_iff.2 hc]
  dsimp only
  rw [hload']

lemma exitCode_of_load (hc : Gives files o.config c) (hfile : files o.program = .ok file)
    (hload : (Simulator.ofConfig (o.override c)).load file = .ok (s, loading)) :
    (o.respond files setting).exitCode = 0 := by
  rw [respond_of_load hc hfile hload]
  split <;> rfl

/-- What is written after the bytes of the program, line by line. -/
lemma closing_eq (s : Simulator) (outcome : Outcome) :
    closing s outcome = (if outcome = .stopped .halted then "\n" else "") ++
      unlines (outcome.text :: s.report.lines) := by
  rw [closing, unlines, List.map_cons, String.join_cons, Report.text]
  simp only [String.append_assoc]

/-- **The output is the text of the bytes emitted**, and the closing lines. -/
lemma output_execute (t : Threshold) :
    (execute o t s loading).output =
      (Latin1.text (Effect.emitted (loading ++ s.run.2.2.toList)) ++
        closing s.run.1 s.run.2.1).toUTF8.data := by
  have hoc := Sink.console_feed (loading ++ s.run.2.2.toList) #[]
  rw [Array.empty_append] at hoc
  change (Sink.console.feed (loading ++ s.run.2.2.toList) #[]).1 ++ utf8 _ = _
  rw [hoc, utf8, ← ByteArray.data_append]
  exact congrArg ByteArray.data String.toByteArray_append.symm

/-- **What the program answers when it is to run or to list a program.** It fails if and only if the
settings or the program cannot be read or are rejected, and then it writes nothing. Otherwise it
succeeds, however the program ends; and if it has run it, the output is the text of the bytes that
the program has emitted, in UTF-8, and after them how it has ended and the registers. All of this
is what a new simulator comes to that has these settings, with the options over them, and loads the
file and runs it. -/
theorem respond_run {σ : Type} (sink : Sink σ) (a : σ) {arguments : List String} {o : Options}
    (h : Request.ofArguments arguments = .ok (.run o)) (files : Files) (setting : Option String) :
    let r := respond arguments files setting
    (r.exitCode = 1 ↔ ¬ Accepted files o) ∧ (r.exitCode = 1 → r.output = #[]) ∧
    (r.exitCode ≠ 1 → r.exitCode = 0) ∧
    (r.exitCode = 0 → ¬ o.Has .disassemble → ∃ c file s loading,
      Gives files o.config c ∧ files o.program = .ok file ∧
      (Simulator.ofConfig (o.override c)).load file = .ok (s, loading) ∧
      let after := s.run.1
      let outcome := s.run.2.1
      let bytes := sink.offered a (loading ++ s.run.2.2.toList)
      let registers := List.ofFn fun k : Fin 8 =>
        "r" ++ toString k.val ++ " = " ++ toString after.machine.registers.values[k].toNat
      r.output = (Latin1.text bytes ++ ((if outcome = .stopped .halted then "\n" else "") ++
        unlines (outcome.text :: "Execution finished." :: registers))).toUTF8.data) := by
  intro r
  have hr : r = o.respond files setting := by
    dsimp only [r]
    rw [respond, h]
  by_cases hok : Accepted files o
  · obtain ⟨c, hc⟩ := hok.config
    obtain ⟨file, hfile, himage⟩ := hok.program
    obtain ⟨⟨s, loading⟩, hload⟩ := (exists_load_iff (s := .ofConfig (o.override c))).2 himage
    have hzero : r.exitCode = 0 := hr ▸ exitCode_of_load hc hfile hload
    have hone : r.exitCode ≠ 1 := by
      rw [hzero]
      decide
    refine ⟨⟨fun h => absurd h hone, fun h => absurd hok h⟩, fun h => absurd h hone,
      fun _ => hzero, fun _ hrun => ⟨c, file, s, loading, hc, hfile, hload, ?_⟩⟩
    intro after outcome bytes registers
    rw [hr, respond_of_load hc hfile hload, if_neg hrun, output_execute, closing_eq,
      Report.lines_eq, ← Sink.offered_eq sink a]
    rfl
  · obtain ⟨message, hfailed⟩ := respond_of_not_accepted hok setting
    rw [hr, hfailed]
    exact ⟨⟨fun _ => hok, fun _ => rfl⟩, fun _ => rfl, fun h => absurd rfl h, nofun⟩

/-- The letter A and a byte that is no letter of ASCII are emitted, and the program halts. -/
theorem respond_run_prints :
    let program := (Image.ofProgram 0
      [.load 0 0x41, .store 0 60, .load 0 0xe9, .store 0 60, .halt]).encode.toArray
    let files : Files := fun path =>
      .ok (if path = "c.json" then "[[64, 60]]".toUTF8.data else program)
    let arguments := ["--config", "c.json", "p.mhfb"]
    let o : Options := ⟨"p.mhfb", some "c.json", none, []⟩
    Request.ofArguments arguments = .ok (.run o) ∧ Accepted files o ∧
      (respond arguments files none).exitCode = 0 ∧
      (respond arguments files none).output = (unlines ["Aé", "[HALT] CPU halted.",
        "Execution finished.", "r0 = 233", "r1 = 0", "r2 = 0", "r3 = 0", "r4 = 0", "r5 = 0",
        "r6 = 0", "r7 = 0"]).toUTF8.data := by
  intro program files arguments o
  have ho : Request.ofArguments arguments = .ok (.run o) := by decide +kernel
  obtain ⟨hexit, -, hzero, hruns⟩ := respond_run Sink.capture #[] ho files none
  have hconfig : o.fileConfig files = .ok { memory := ⟨64, 60⟩ } := by decide +kernel
  have hprogram : files o.program = .ok program := by decide +kernel
  have hok : Accepted files o :=
    ⟨⟨_, fileConfig_eq_ok_iff.1 hconfig⟩, program, hprogram, by decide, by decide⟩
  have hsuccess := hzero fun h => hexit.1 h hok
  obtain ⟨c, file, s, loading, hc, hfile, hload, hout⟩ := hruns hsuccess (by decide)
  obtain rfl : program = file := Except.ok.inj (hprogram.symm.trans hfile)
  obtain rfl : _ = c := Except.ok.inj (hconfig.symm.trans (fileConfig_eq_ok_iff.2 hc))
  rw [Simulator.load, Machine.install_eq_ok_iff.2 ⟨by decide, by decide, rfl⟩] at hload
  obtain ⟨rfl, rfl⟩ := Prod.mk.inj (Except.ok.inj hload)
  exact ⟨ho, hok, hsuccess, hout.trans (by decide +kernel)⟩

end CommandLine

end ByteMachine
