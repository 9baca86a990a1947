import ScriptStrip.CommandLine.Run
import ScriptStrip.Proofs.DottedSuffixes
/-
This file says what a build hands over to be written. It is one file if everything that the build
needs is there and valid, and nothing otherwise. Where the settings come from makes no difference.
-/

namespace ScriptStrip

namespace Configuration

variable {configuration : Configuration} {options options' : Options}

/-- The accessor may be left out, and the one that counts has to be an identifier. -/
theorem Options.check_eq_ok_iff : options.check = .ok configuration ↔
    configuration.StripsEntries options.suffixes ∧
      configuration.isProduction = options.isProduction ∧
      configuration.modeAccessor = options.modeAccessor.getD defaultAccessor ∧
      Text.isIdentifier configuration.modeAccessor = true := by
  have isName : Text.isIdentifier defaultAccessor = true := by decide
  rw [check]
  cases made : ofSuffixes options.isProduction options.suffixes with
  | error error =>
      constructor
      · rintro ⟨⟩
      · rintro ⟨strips, _⟩
        obtain ⟨other, isMade⟩ := exists_ofSuffixes_iff.mpr strips.dotted
        rw [isMade] at made
        cases made
  | ok unnamed =>
      obtain ⟨strips, sameProduction, sameAccessor⟩ := ofSuffixes_eq_ok_iff.mp made
      have onlyOne {other : Configuration} (ofOther : other.StripsEntries options.suffixes)
          (same : other.isProduction = options.isProduction) :
          other = { unnamed with modeAccessor := other.modeAccessor } := by
        have again : ofSuffixes options.isProduction options.suffixes =
            .ok { other with modeAccessor := defaultAccessor } :=
          ofSuffixes_eq_ok_iff.mpr
            ⟨⟨ofOther.dotted, ofOther.mem_suffixes_iff, ofOther.ascending⟩, same, rfl⟩
        rw [made] at again
        cases again
        rfl
      cases options.modeAccessor with
      | none =>
          constructor
          · rintro ⟨⟩
            exact ⟨strips, sameProduction, sameAccessor, by rw [sameAccessor]; exact isName⟩
          · rintro ⟨ofOther, same, named, _⟩
            rw [onlyOne ofOther same, named, Option.getD_none, ← sameAccessor]
            rfl
      | some name =>
          show unnamed.withModeAccessor name = .ok configuration ↔ _
          rw [withModeAccessor_eq_ok_iff]
          constructor
          · rintro ⟨valid, rfl⟩
            exact ⟨⟨strips.dotted, strips.mem_suffixes_iff, strips.ascending⟩, sameProduction, rfl,
              valid⟩
          · rintro ⟨ofOther, same, named, valid⟩
            rw [Option.getD_some] at named
            rw [named] at valid
            refine ⟨valid, ?_⟩
            rw [onlyOne ofOther same, named]

end Configuration

namespace CommandLine

open ScriptStrip.Configuration (Options)

/-- The surroundings of a run over the given files. What is handed over to be written is kept in
its order, whether it can be written or not. -/
def Environment.recording (files : Path → Option String)
    (write : Path → String → Except String Unit) (clock : List OutputFile → Nat) :
    Environment (StateM (List OutputFile)) where
  read path := return files path
  write path content := do
    modify (· ++ [⟨path, content⟩])
    return write path content
  clock := return clock (← get)

namespace BuildArguments

/-- The options that the arguments are put on top of. -/
inductive StartsFrom (files : Path → Option String) (arguments : BuildArguments) :
    Options → Prop where
  | nothing (unnamed : arguments.configuration = none) : StartsFrom files arguments {}
  | file {path : Path} {content : String} {options : Options}
      (named : arguments.configuration = some path) (found : files path = some content)
      (accepted : Options.ofJson content = .ok options) : StartsFrom files arguments options

/-- The arguments on top of the options are valid and come to the configuration. Either of them can
ask for production, the suffixes of both are stripped, and the accessor of the arguments counts
before that of the options and the usual one. -/
structure Settles (arguments : BuildArguments) (options : Options)
    (configuration : Configuration) : Prop where
  isProduction : configuration.isProduction = true ↔
    options.isProduction = true ∨ arguments.isProduction = true
  strips : configuration.StripsEntries (options.suffixes ++ arguments.suffixes)
  modeAccessor : configuration.modeAccessor =
    (arguments.modeAccessor.or options.modeAccessor).getD "$mode"
  isIdentifier : Text.isIdentifier configuration.modeAccessor = true

/-- Everything that the build needs is there and valid, and the file is what it comes to. -/
inductive Builds (files : Path → Option String) (arguments : BuildArguments) :
    OutputFile → Prop where
  | intro {options : Options} {configuration : Configuration} {source : String} {script : Script}
      (starts : arguments.StartsFrom files options)
      (settles : arguments.Settles options configuration)
      (found : files arguments.input = some source) (accepted : Script.parse source = .ok script) :
      Builds files arguments ⟨arguments.outputPath,
        BuildSettings.content ⟨configuration, arguments.isMinified⟩
          (script.rewrite configuration).1⟩

/-- The arguments and the options below them come to the same settings. -/
structure SettingsAgree (arguments : BuildArguments) (options : Options)
    (arguments' : BuildArguments) (options' : Options) : Prop where
  isProduction : (options.isProduction || arguments.isProduction) =
    (options'.isProduction || arguments'.isProduction)
  suffixes : ∀ suffix, suffix ∈ options.suffixes ∨ suffix ∈ arguments.suffixes ↔
    suffix ∈ options'.suffixes ∨ suffix ∈ arguments'.suffixes
  modeAccessor : (arguments.modeAccessor.or options.modeAccessor).getD "$mode" =
    (arguments'.modeAccessor.or options'.modeAccessor).getD "$mode"

variable {files files' : Path → Option String} {arguments arguments' : BuildArguments}
  {options options' : Options} {configuration : Configuration} {file : OutputFile}

/-- The options of a file are read if the file is there and its text is valid. -/
theorem optionsOf_eq_ok_iff {path : Path} {content? : Option String} :
    optionsOf path content? = .ok options ↔
      ∃ content, content? = some content ∧ Options.ofJson content = .ok options := by
  cases content? with
  | none => simp [optionsOf]
  | some content =>
      rw [optionsOf]
      cases accepted : Options.ofJson content <;> simp [accepted]

/-- The options below the arguments, if the files are known. -/
def startingOptions (files : Path → Option String) (arguments : BuildArguments) :
    Except BuildError Options :=
  match arguments.configuration with
  | none => .ok {}
  | some path => optionsOf path (files path)

/-- What the build comes to, if the files are known. -/
def result (files : Path → Option String) (arguments : BuildArguments) :
    Except BuildError BuildResult :=
  ((arguments.startingOptions files).bind arguments.settings).bind fun settings =>
    match files arguments.input with
    | none => .error (.missingFile arguments.input)
    | some source => settings.buildSource arguments.input arguments.outputPath source

/-- The options that a build starts from are those of the relation. -/
theorem startingOptions_eq_ok_iff :
    arguments.startingOptions files = .ok options ↔ arguments.StartsFrom files options := by
  rw [startingOptions]
  constructor
  · intro isOk
    split at isOk
    · rename_i unnamed
      cases isOk
      exact .nothing unnamed
    · rename_i path named
      obtain ⟨content, found, accepted⟩ := optionsOf_eq_ok_iff.mp isOk
      exact .file named found accepted
  · intro starts
    cases starts with
    | nothing unnamed => rw [unnamed]
    | file named found accepted =>
        rw [named]
        exact optionsOf_eq_ok_iff.mpr ⟨_, found, accepted⟩

/-- The merged options are found valid exactly if they come to a configuration. -/
theorem check_extend_eq_ok_iff :
    (arguments.extend options).check = .ok configuration ↔
      arguments.Settles options configuration := by
  have sameAccessor : (arguments.extend options).modeAccessor =
      arguments.modeAccessor.or options.modeAccessor := by
    simp only [extend, Option.orElse_eq_orElse, Option.orElse_eq_or]
  rw [Options.check_eq_ok_iff, sameAccessor]
  constructor
  · rintro ⟨strips, sameProduction, named, isName⟩
    refine ⟨?_, strips, named, isName⟩
    rw [sameProduction, extend, Bool.or_eq_true]
  · rintro ⟨isProduction, strips, named, isName⟩
    refine ⟨strips, ?_, named, isName⟩
    rw [extend, Bool.eq_iff_iff, isProduction, Bool.or_eq_true]

/-- The settings of a build are the configuration that its options come to and its own style. -/
theorem settings_eq_ok_iff {settings : BuildSettings} :
    arguments.settings options = .ok settings ↔
      arguments.Settles options settings.configuration ∧
        settings.isMinified = arguments.isMinified := by
  rw [BuildArguments.settings, ← check_extend_eq_ok_iff]
  obtain ⟨configuration, isMinified⟩ := settings
  cases (arguments.extend options).check with
  | error error => simp
  | ok found => simp [eq_comm]

/-- A source is built exactly if it is a script, and its rewrite is what is to be written. -/
theorem exists_buildSource_iff {settings : BuildSettings} {input output : Path}
    {source : String} :
    (∃ result, settings.buildSource input output source = .ok result ∧ result.output = file) ↔
      ∃ script, Script.parse source = .ok script ∧
        file = ⟨output, settings.content (script.rewrite settings.configuration).1⟩ := by
  rw [BuildSettings.buildSource]
  cases Script.parse source with
  | error error => simp
  | ok script => simp [eq_comm]

/-- A build comes to a file exactly if it has all that it needs. -/
theorem builds_iff : arguments.Builds files file ↔
    ∃ result, arguments.result files = .ok result ∧ result.output = file := by
  rw [result]
  constructor
  · rintro ⟨starts, settles, found, accepted⟩
    rename_i options configuration source script
    have isSettings : arguments.settings options = .ok ⟨configuration, arguments.isMinified⟩ :=
      settings_eq_ok_iff.mpr ⟨settles, rfl⟩
    rw [startingOptions_eq_ok_iff.mpr starts, Except.bind, isSettings, Except.bind, found]
    exact exists_buildSource_iff.mpr ⟨script, accepted, rfl⟩
  · rintro ⟨result, isOk, sameOutput⟩
    cases starts : arguments.startingOptions files with
    | error error =>
        rw [starts] at isOk
        cases isOk
    | ok options =>
        cases isSettings : arguments.settings options with
        | error error =>
            rw [starts, Except.bind, isSettings] at isOk
            cases isOk
        | ok settings =>
            rw [starts, Except.bind, isSettings, Except.bind] at isOk
            obtain ⟨settles, sameStyle⟩ := settings_eq_ok_iff.mp isSettings
            cases found : files arguments.input with
            | none =>
                rw [found] at isOk
                cases isOk
            | some source =>
                rw [found] at isOk
                obtain ⟨script, accepted, rfl⟩ :=
                  exists_buildSource_iff.mp ⟨result, isOk, sameOutput⟩
                have isBuilt := Builds.intro (startingOptions_eq_ok_iff.mp starts) settles found
                  accepted
                rw [← sameStyle] at isBuilt
                exact isBuilt

/-- A build reads files and does nothing else. -/
theorem build_eq_pure {Action : Type → Type} [Monad Action] [LawfulMonad Action]
    (files : Path → Option String) (arguments : BuildArguments) :
    arguments.build (fun path => (pure (files path) : Action (Option String))) =
      pure (arguments.result files) := by
  have ofOptions : arguments.options (fun path => (pure (files path) : Action (Option String))) =
      pure (arguments.startingOptions files) := by
    rw [BuildArguments.options, startingOptions]
    cases arguments.configuration <;> simp
  rw [BuildArguments.build, ofOptions, pure_bind, result]
  cases (arguments.startingOptions files).bind arguments.settings with
  | error error => rfl
  | ok settings =>
      show settings.build _ _ _ = pure (match files arguments.input with | _ => _)
      rw [BuildSettings.build, pure_bind]
      cases files arguments.input <;> rfl

section

variable {write : Path → String → Except String Unit} {clock : List OutputFile → Nat}
  {written : List OutputFile}

/-- Nothing is written if there is nothing to write. -/
theorem run_recording_of_error {error : BuildError}
    (isError : arguments.result files = .error error) :
    (arguments.run (.recording files write clock)).run written =
      ({ isSuccess := false, errors := error.render }, written) := by
  have isBuilt : arguments.build (Environment.recording files write clock).read =
      pure (arguments.result files) := build_eq_pure files arguments
  rw [BuildArguments.run, isBuilt, isError]
  rfl

/-- What is built is handed over once, and the run succeeds if it can be written. -/
theorem run_recording_of_ok {result : BuildResult} (isOk : arguments.result files = .ok result) :
    ∃ outcome, (arguments.run (.recording files write clock)).run written =
        (outcome, written ++ [result.output]) ∧
      (outcome.isSuccess = true ↔ write result.output.path result.output.content = .ok ()) := by
  have isBuilt : arguments.build (Environment.recording files write clock).read =
      pure (arguments.result files) := build_eq_pure files arguments
  rw [BuildArguments.run, isBuilt, isOk]
  cases answer : write result.output.path result.output.content with
  | error reason =>
      simp only [Environment.recording, bind_pure_comp, Functor.map_map, bind_map_left, pure_bind,
        answer, LawfulMonadStateOf.get_bind_const, StateT.run_map, StateT.run_modify, map_pure,
        reduceCtorEq, iff_false, Bool.not_eq_true]
      exact ⟨_, rfl, rfl⟩
  | ok _ =>
      simp only [Environment.recording, bind_pure_comp, Functor.map_map, bind_map_left, pure_bind,
        answer, StateT.run_bind, StateT.run_get, StateT.run_modify, StateT.run_map, map_pure,
        iff_true]
      exact ⟨_, rfl, rfl⟩

end

namespace StartsFrom

/-- A build starts from one set of options only. -/
theorem unique {other : Options} (starts : arguments.StartsFrom files options)
    (starts' : arguments.StartsFrom files other) : other = options := by
  have isOk := startingOptions_eq_ok_iff.mpr starts'
  rw [startingOptions_eq_ok_iff.mpr starts] at isOk
  cases isOk
  rfl

end StartsFrom

namespace SettingsAgree

/-- Two builds agree in either order. -/
theorem symm (agree : SettingsAgree arguments options arguments' options') :
    SettingsAgree arguments' options' arguments options :=
  ⟨agree.isProduction.symm, fun suffix => (agree.suffixes suffix).symm, agree.modeAccessor.symm⟩

/-- The same settings are valid or not, and come to the same configuration. -/
theorem settles (agree : SettingsAgree arguments options arguments' options')
    (isSettled : arguments.Settles options configuration) :
    arguments'.Settles options' configuration where
  isProduction := by
    rw [isSettled.isProduction, ← Bool.or_eq_true, agree.isProduction, Bool.or_eq_true]
  strips := isSettled.strips.of_same fun suffix => by
    simpa only [List.mem_append] using (agree.suffixes suffix).symm
  modeAccessor := isSettled.modeAccessor.trans agree.modeAccessor
  isIdentifier := isSettled.isIdentifier

/-- It makes no difference which part of the settings stands in the configuration file. -/
theorem builds (agree : SettingsAgree arguments options arguments' options')
    (starts : arguments.StartsFrom files options) (starts' : arguments'.StartsFrom files' options')
    (sameInput : arguments'.input = arguments.input)
    (sameSource : files' arguments.input = files arguments.input)
    (sameOutput : arguments'.outputPath = arguments.outputPath)
    (sameStyle : arguments'.isMinified = arguments.isMinified)
    (isBuilt : arguments.Builds files file) : arguments'.Builds files' file := by
  cases isBuilt with
  | intro startsFrom isSettled found accepted =>
      rw [starts.unique startsFrom] at isSettled
      rw [← sameSource, ← sameInput] at found
      rw [← sameOutput, ← sameStyle]
      exact .intro starts' (agree.settles isSettled) found accepted

end SettingsAgree

/-- The outcome of a run over the given files, and what it hands over to be written. -/
def ran (files : Path → Option String) (write : Path → String → Except String Unit)
    (clock : List OutputFile → Nat) (arguments : BuildArguments) : Outcome × List OutputFile :=
  (arguments.run (.recording files write clock)).run []

section

variable {write : Path → String → Except String Unit} {clock : List OutputFile → Nat}

/-- A build hands over its file, and succeeds exactly if that is written. -/
theorem ran_of_builds (isBuilt : arguments.Builds files file) :
    (arguments.ran files write clock).2 = [file] ∧
      ((arguments.ran files write clock).1.isSuccess = true ↔
        write file.path file.content = .ok ()) := by
  obtain ⟨result, isOk, rfl⟩ := builds_iff.mp isBuilt
  obtain ⟨outcome, ran, succeeds⟩ := run_recording_of_ok isOk
  rw [BuildArguments.ran, ran]
  exact ⟨rfl, succeeds⟩

/-- Without a file to write nothing is handed over, and the run fails. -/
theorem ran_of_not_builds (notBuilt : ¬ ∃ file, arguments.Builds files file) :
    (arguments.ran files write clock).2 = [] ∧
      (arguments.ran files write clock).1.isSuccess = false := by
  cases isResult : arguments.result files with
  | ok result => exact absurd ⟨_, builds_iff.mpr ⟨result, isResult, rfl⟩⟩ notBuilt
  | error error =>
      rw [ran, run_recording_of_error isResult]
      exact ⟨rfl, rfl⟩

end

/-- A run hands one file over to be written if its build has all that it needs, and succeeds if
that can be written. Otherwise it writes nothing and fails. Runs with the same settings, script and
output write the same, wherever the settings come from. -/
theorem writes_all_or_nothing (files : Path → Option String)
    (write : Path → String → Except String Unit) (clock : List OutputFile → Nat)
    (arguments : BuildArguments) :
    (∀ file, arguments.Builds files file →
        (arguments.ran files write clock).2 = [file] ∧
          file.path = arguments.output.getD ⟨"amp_output.js"⟩ ∧
          ((arguments.ran files write clock).1.isSuccess = true ↔
            write file.path file.content = .ok ())) ∧
      ((¬ ∃ file, arguments.Builds files file) →
        (arguments.ran files write clock).2 = [] ∧
          (arguments.ran files write clock).1.isSuccess = false) ∧
      (∀ texts, Command.ofArguments texts = .ok (.build arguments) →
        (CommandLine.run (.recording files write clock) texts).run [] =
          arguments.ran files write clock) ∧
      ∀ files' write' clock' arguments' options options',
        arguments.StartsFrom files options → arguments'.StartsFrom files' options' →
        SettingsAgree arguments options arguments' options' →
        arguments'.input = arguments.input → files' arguments.input = files arguments.input →
        arguments'.outputPath = arguments.outputPath →
        arguments'.isMinified = arguments.isMinified →
          (arguments'.ran files' write' clock').2 = (arguments.ran files write clock).2 := by
  refine ⟨?_, ran_of_not_builds, ?_, ?_⟩
  · intro file isBuilt
    obtain ⟨written, succeeds⟩ := ran_of_builds isBuilt
    refine ⟨written, ?_, succeeds⟩
    cases isBuilt
    rfl
  · intro texts parsed
    rw [CommandLine.run, parsed]
    rfl
  · intro files' write' clock' arguments' options options' starts starts' agree sameInput
      sameSource sameOutput sameStyle
    -- If either of the runs writes, so does the other, since the settings agree in both
    -- directions.
    by_cases isBuilt : ∃ file, arguments.Builds files file
    · obtain ⟨file, isBuilt⟩ := isBuilt
      have isBuilt' := agree.builds starts starts' sameInput sameSource sameOutput sameStyle isBuilt
      rw [(ran_of_builds isBuilt).1, (ran_of_builds isBuilt').1]
    · have notBuilt' : ¬ ∃ file, arguments'.Builds files' file := by
        rintro ⟨file, isBuilt'⟩
        have sameSource' : files arguments'.input = files' arguments'.input := by
          rw [sameInput, sameSource]
        exact isBuilt ⟨file, agree.symm.builds starts' starts sameInput.symm sameSource'
          sameOutput.symm sameStyle.symm isBuilt'⟩
      rw [(ran_of_not_builds isBuilt).1, (ran_of_not_builds notBuilt').1]

/-- The same content is written for the settings of a file and for flags that repeat them. -/
theorem writes_all_or_nothing_flags : ∃ content,
    ∀ arguments ∈ ([⟨{ configuration := some ⟨"strip.json"⟩ }, ⟨"a.js"⟩⟩,
        ⟨{ isProduction := true, suffixes := ["log", "log"], modeAccessor := some "$mode" },
          ⟨"a.js"⟩⟩] : List BuildArguments),
      (arguments.ran (fun path => some (if path.text = "a.js" then "dev.log(1);b()" else
          "\x7b\"isProd\":true,\"suffixTypesToStrip\":[\"log\"]\x7d"))
        (fun _ _ => .ok ()) fun _ => 0).2 = [⟨⟨"amp_output.js"⟩, content⟩] := by
  have isOptions : Options.ofJson "\x7b\"isProd\":true,\"suffixTypesToStrip\":[\"log\"]\x7d" =
      .ok ⟨true, ["log"], none⟩ := by cbv
  have valid : Options.check ⟨true, ["log"], none⟩ = .ok ⟨true, [["log"]], "$mode"⟩ := by cbv
  have settles : Settles ⟨{ configuration := some ⟨"strip.json"⟩ }, ⟨"a.js"⟩⟩
      ⟨true, ["log"], none⟩ ⟨true, [["log"]], "$mode"⟩ := check_extend_eq_ok_iff.mp valid
  have accepted : (Script.parse "dev.log(1);b()").isOk = true := by cbv
  cases parsed : Script.parse "dev.log(1);b()" with
  | error error =>
      rw [parsed] at accepted
      cases accepted
  | ok script =>
      obtain ⟨writes, _, _, same⟩ := writes_all_or_nothing
        (fun path => some (if path.text = "a.js" then "dev.log(1);b()" else
          "\x7b\"isProd\":true,\"suffixTypesToStrip\":[\"log\"]\x7d"))
        (fun _ _ => .ok ()) (fun _ => 0) ⟨{ configuration := some ⟨"strip.json"⟩ }, ⟨"a.js"⟩⟩
      have written := (writes _ (.intro (.file rfl rfl isOptions) settles rfl parsed)).1
      refine ⟨_, List.forall_mem_cons.mpr ⟨written, List.forall_mem_singleton.mpr ?_⟩⟩
      refine Eq.trans ?_ written
      exact same _ _ _ _ _ {} (.file rfl rfl isOptions) (.nothing rfl)
        ⟨rfl, fun suffix => by simp, rfl⟩ rfl rfl rfl rfl

end BuildArguments

end CommandLine

end ScriptStrip
