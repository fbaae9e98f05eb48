import LineShell.Program
import LineShell.Proofs.Host.Delivery
import LineShell.Proofs.Interpreter.Received

/-!
# Configurations that cannot be loaded

What standard error has received has no part in what a session does.  So after a configuration
could not be loaded, the program does all that it does with the defaults, and the message about it
stands in front of what it then writes to standard error.
-/

namespace LineShell

open Host

namespace Host

def Told (before message : Bytes) (h k : Host) : Prop :=
  ∃ later, h.err = before ++ later ∧ k = { h with err := before ++ message ++ later }

theorem hostStable_told (before message : Bytes) : HostStable (Told before message) :=
  hostStable_ahead .stderr before (before ++ message)

end Host

namespace Program

variable {block : List Text} {config : Config} {source : Source} {h k : Host}

def runWith (config : Config) (block : List Text) (source : Source) (h : Host) :
    Option Nat × Host :=
  match log? block config with
  | none => (some statusBroken, h.flush.2)
  | some log =>
      match Interpreter.run (Shell.execute log) (interpreter block config log source h) with
      | (none, i) => (none, i.session.host)
      | (some result, i) =>
          let (status, h) := conclude result i.session
          (some status, h)

theorem run_eq_runWith (hcomplaint : (complain block h).1 = .ok ()) (source : Source) :
    run block source h = runWith (configure block h).1 block source (configure block h).2 := by
  simp only [run, runWith, hcomplaint]
  cases log? block (configure block h).1 with
  | none => rfl
  | some log => rfl

theorem complain_terminal (ht : h.OnTerminal .stderr) (block : List Text) :
    complain block h = (.ok (), { h with err := h.err ++ Utf8.encode (configuration block h).2 }) :=
  writeStream_terminal ht _

variable {R : Host → Host → Prop}

theorem conclude_agrees (hR : HostStable R) {s s' : Shell} (hs : Shell.Related R s s')
    (result : Except ShellError Unit) : Agree R (conclude result s) (conclude result s') := by
  unfold conclude
  rw [← hs.own]
  cases result with
  | error e =>
      dsimp only
      have hwritten := hR.writeStream hs.host .stderr (Utf8.encode (Interpreter.errorLine e))
      generalize s.host.writeStream .stderr (Utf8.encode (Interpreter.errorLine e)) = written
        at hwritten ⊢
      generalize s'.host.writeStream .stderr (Utf8.encode (Interpreter.errorLine e)) = written'
        at hwritten ⊢
      obtain ⟨result, k⟩ := written
      obtain ⟨result', k'⟩ := written'
      obtain ⟨rfl, hafter⟩ := hwritten
      cases result <;> exact ⟨rfl, (hR.flush hafter).2⟩
  | ok u => cases s.own <;> exact ⟨rfl, (hR.flush hs.host).2⟩

theorem runWith_agrees (hR : HostStable R) (hk : R h k) (config : Config) (block : List Text)
    (source : Source) :
    Agree R (runWith config block source h) (runWith config block source k) := by
  unfold runWith
  cases log? block config with
  | none => exact ⟨rfl, (hR.flush hk).2⟩
  | some log =>
      have hstart : Interpreter.Related R (interpreter block config log source h)
          (interpreter block config log source k) := by
        refine ⟨rfl, rfl, rfl, ?_, rfl, hk⟩
        simp only [interpreter, Session.configured, (hR.outline hk).workDir]
      obtain ⟨hresult, hrel⟩ := Interpreter.runFor_agrees hR (source.remaining + 1) hstart
      change (Interpreter.run (Shell.execute log) _).1 = (Interpreter.run (Shell.execute log) _).1
        at hresult
      change Interpreter.Related R (Interpreter.run (Shell.execute log) _).2
        (Interpreter.run (Shell.execute log) _).2 at hrel
      dsimp only
      generalize Interpreter.run (Shell.execute log) (interpreter block config log source h) = ran
        at hresult hrel ⊢
      generalize Interpreter.run (Shell.execute log) (interpreter block config log source k) = ran'
        at hresult hrel ⊢
      obtain ⟨result, i⟩ := ran
      obtain ⟨result', j⟩ := ran'
      obtain rfl : result = result' := hresult
      cases result with
      | none => exact ⟨rfl, hrel.session.host⟩
      | some result =>
          obtain ⟨hstatus, hhost⟩ := conclude_agrees hR hrel.session result
          exact ⟨congrArg some hstatus, hhost⟩

def complaint (path : Text) (e : ConfigError) : Text :=
  "minish: ".toList ++ path ++ ": ".toList ++ e.message ++ ['\n']

/-- The program says that the configuration cannot be loaded, and does what it does with the
defaults. -/
theorem run_of_unloadable {path : Text} {e : ConfigError} (ht : h.OnTerminal .stderr)
    (hpath : configPath? block = some path) (he : Config.loadOrDefault h path = .error e)
    (source : Source) :
    let plain := runWith .default block source h
    ∃ later, plain.2.err = h.err ++ later ∧
      run block source h =
        (plain.1, { plain.2 with err := h.err ++ Utf8.encode (complaint path e) ++ later }) := by
  intro plain
  have hcomplaint := complain_terminal ht block
  have hconfigure : configure block h =
      (.default, { h with err := h.err ++ Utf8.encode (complaint path e) }) := by
    rw [configure, hcomplaint]
    simp only [configuration, hpath, he]
    rfl
  have htold : Told h.err (Utf8.encode (complaint path e)) h
      { h with err := h.err ++ Utf8.encode (complaint path e) } := ⟨[], by simp, by simp⟩
  obtain ⟨hstatus, later, herr, hhost⟩ :=
    runWith_agrees (hostStable_told h.err _) htold .default block source
  refine ⟨later, herr, ?_⟩
  rw [run_eq_runWith (congrArg Prod.fst hcomplaint), hconfigure]
  exact Prod.ext hstatus.symm hhost

end Program

end LineShell
