import LineShell.Execution
import LineShell.Proofs.Host.Outline
import LineShell.Proofs.Host.Output

/-!
# Commands on two hosts

A relation between hosts that outlasts output and launches, and under which paths look alike,
outlasts whole commands: from related hosts a command has the same result and leaves the same
environment, on hosts that are related again.
-/

namespace LineShell

open Host

/-- A relation that outlasts output and the record of launches, between hosts of one outline. -/
structure SessionStable (R : Host → Host → Prop) : Prop extends OutputStable R where
  outline : ∀ {h k}, R h k → h.SameOutline k
  record : ∀ {h k}, R h k → ∀ l : Launch,
    R { h with launches := h.launches ++ [l] } { k with launches := k.launches ++ [l] }

theorem Host.OutputStable.note {R : Host → Host → Prop} (hR : OutputStable R) {h k : Host}
    (hk : R h k) (log : Log) (e : Log.Event) : Agree R (h.note log e) (k.note log e) := by
  unfold Host.note
  split
  · exact hR.writeStream hk .stderr _
  · exact ⟨rfl, hk⟩

theorem Host.Kept.note {P : Host → Prop} (hP : Kept P) {h : Host} (hh : P h) (log : Log)
    (e : Log.Event) : P (h.note log e).2 :=
  (hP.outputStable.note ⟨rfl, hh⟩ log e).2.2

namespace SessionStable

variable {R : Host → Host → Prop} {h k : Host}

theorem launch (hR : SessionStable R) (hk : R h k) {program : Text} {argv environ : List Text}
    {workDir : Text}
    (hprepare : h.prepare program argv environ workDir = k.prepare program argv environ workDir) :
    Agree R (h.launch program argv environ workDir) (k.launch program argv environ workDir) := by
  unfold Host.launch
  rw [← hprepare]
  cases hstarted : h.prepare program argv environ workDir with
  | error e => exact ⟨rfl, hR.record hk _⟩
  | ok p =>
      obtain ⟨hstatus, hrel⟩ := hR.act (hR.record hk ⟨program, argv, environ, workDir, .ok p⟩) p
        p.argv.tail
      exact ⟨congrArg Except.ok hstatus, hrel⟩

end SessionStable

theorem Host.Kept.sessionStable {P : Host → Prop} (hP : Kept P) :
    SessionStable fun h k => h = k ∧ P h where
  toOutputStable := hP.outputStable
  outline := by
    rintro h k ⟨rfl, -⟩
    exact ⟨rfl, FileTree.SameOutline.refl h.tree⟩
  record := by
    rintro h k ⟨rfl, hh⟩ l
    exact ⟨rfl, hP.record hh l⟩

theorem Host.Kept.launch {P : Host → Prop} (hP : Kept P) {h : Host} (hh : P h) (program : Text)
    (argv environ : List Text) (workDir : Text) : P (h.launch program argv environ workDir).2 :=
  (hP.sessionStable.launch ⟨rfl, hh⟩ rfl).2.2

namespace Shell

structure Related (R : Host → Host → Prop) (s s' : Shell) : Prop where
  env : s.env = s'.env
  own : s.own = s'.own
  host : R s.host s'.host

def Agrees (R : Host → Host → Prop) (a b : Except ExecError Outcome × Shell) : Prop :=
  a.1 = b.1 ∧ Related R a.2 b.2

variable {R : Host → Host → Prop} {s s' : Shell} {log : Log}

theorem Related.withHost (hs : Related R s s') {h k : Host} (hhost : R h k) :
    Related R (s.withHost h) (s'.withHost k) :=
  ⟨hs.env, hs.own, hhost⟩

theorem noting_agrees (hR : OutputStable R) (hs : Related R s s') (e : Log.Event)
    {next next' : Action}
    (hnext : ∀ h k, R h k → Agrees R (next (s.withHost h)) (next' (s'.withHost k))) :
    Agrees R (noting log e next s) (noting log e next' s') := by
  obtain ⟨noted, h, k, hnoted, hnoted', hhost⟩ := (hR.note hs.host log e).exists_eq
  simp only [noting, hnoted, hnoted']
  cases noted with
  | error cause => exact ⟨rfl, hs.env, rfl, hhost⟩
  | ok u => exact hnext h k hhost

theorem finish_agrees (hs : Related R s s') (status : Nat) :
    Agrees R (finish status s) (finish status s') := by
  refine ⟨rfl, ?_, hs.own, hs.host⟩
  simp only [finish, hs.env]

theorem runBuiltin_agrees (hR : SessionStable R) (hs : Related R s s') (b : Builtin)
    (args : List Text) : Agrees R (runBuiltin b args s) (runBuiltin b args s') := by
  have hrun := (hR.outline hs.host).run_eq b args s.env
  obtain ⟨printed, h, k, hprinted, hprinted', hhost⟩ :=
    (hR.printAll hs.host (b.run args s.env s.host).pieces).exists_eq
  obtain ⟨flushed, h', k', hflushed, hflushed', hhost⟩ := (hR.flush hhost).exists_eq
  simp only [runBuiltin, ← hs.env, ← hrun, hprinted, hprinted', hflushed, hflushed']
  cases flushed with
  | error e => exact ⟨rfl, rfl, hs.own, hhost⟩
  | ok u => cases printed <;> exact ⟨rfl, rfl, hs.own, hhost⟩

theorem reportNotFound_agrees (hR : SessionStable R) (hs : Related R s s') (name : Text) :
    Agrees R (reportNotFound name s) (reportNotFound name s') := by
  obtain ⟨printed, h, k, hprinted, hprinted', hhost⟩ :=
    (hR.printAll hs.host [name, ": command not found\n".toList]).exists_eq
  simp only [reportNotFound, hprinted, hprinted']
  cases printed with
  | error e => exact ⟨rfl, hs.env, hs.own, hhost⟩
  | ok u =>
      obtain ⟨flushed, h', k', hflushed, hflushed', hhost⟩ := (hR.flush hhost).exists_eq
      simp only [hflushed, hflushed']
      cases flushed with
      | error e => exact ⟨rfl, hs.env, hs.own, hhost⟩
      | ok u =>
          refine ⟨rfl, ?_, hs.own, hhost⟩
          simp only [finish, withHost, hs.env]

theorem reportLaunch_agrees (hR : SessionStable R) (hs : Related R s s') (name : Text)
    (cause : IOError) {next : Action}
    (hnext : ∀ h k, R h k → Agrees R (next (s.withHost h)) (next (s'.withHost k))) :
    Agrees R (reportLaunch name cause next s) (reportLaunch name cause next s') := by
  obtain ⟨told, h, k, htold, htold', hhost⟩ := (hR.writeStream hs.host .stderr
    (Utf8.encode (name ++ ": ".toList ++ cause.message ++ ['\n']))).exists_eq
  simp only [reportLaunch, htold, htold']
  cases told with
  | error e => exact ⟨rfl, hs.env, hs.own, hhost⟩
  | ok u => exact hnext h k hhost

theorem runProgram_agrees (hR : SessionStable R) (hs : Related R s s') {name path : Text}
    {args : List Text}
    (hlaunch : ∀ h k, R h k →
      Agree R (h.launch (s.env.resolve path) (name :: args) s.env.block s.env.cwd)
        (k.launch (s.env.resolve path) (name :: args) s.env.block s.env.cwd)) :
    Agrees R (runProgram log name path args s) (runProgram log name path args s') := by
  have hfinish : ∀ status h k, R h k →
      Agrees R (finish status (s.withHost h)) (finish status (s'.withHost k)) :=
    fun status h k hhost => finish_agrees (hs.withHost hhost) status
  obtain ⟨flushed, h, k, hflushed, hflushed', hhost⟩ := (hR.flush hs.host).exists_eq
  simp only [runProgram, ← hs.env, hflushed, hflushed']
  cases flushed with
  | error e => exact ⟨rfl, hs.env, hs.own, hhost⟩
  | ok u =>
      obtain ⟨launched, h', k', hlaunched, hlaunched', hhost⟩ := (hlaunch h k hhost).exists_eq
      have hrelated := hs.withHost hhost
      simp only [hlaunched, hlaunched']
      cases launched with
      | ok status => exact noting_agrees hR.toOutputStable hrelated _ (hfinish status)
      | error cause =>
          refine noting_agrees hR.toOutputStable hrelated _ fun h k hhost => ?_
          refine reportLaunch_agrees hR (hs.withHost hhost) name cause fun h k hhost => ?_
          exact noting_agrees hR.toOutputStable (hs.withHost hhost) _
            (hfinish statusCannotExecute)

/-- A command runs alike on related hosts if the program that its name is resolved to does. -/
theorem runWords_agrees (hR : SessionStable R) (hs : Related R s s') (argv : List Text)
    (hlaunch : ∀ name args path, argv = name :: args → Builtin.ofName? name = none →
      Lookup.resolveIn s.host s.env name = some path → ∀ h k, R h k →
        Agree R (h.launch (s.env.resolve path) (name :: args) s.env.block s.env.cwd)
          (k.launch (s.env.resolve path) (name :: args) s.env.block s.env.cwd)) :
    Agrees R (runWords log argv s) (runWords log argv s') := by
  cases argv with
  | nil =>
      refine ⟨?_, hs⟩
      simp only [runWords, hs.env]
  | cons name args =>
      simp only [runWords]
      cases hname : Builtin.ofName? name with
      | some b =>
          refine noting_agrees hR.toOutputStable hs _ fun h k hhost => ?_
          exact runBuiltin_agrees hR (hs.withHost hhost) b args
      | none =>
          have hresolve : Lookup.resolveIn s'.host s'.env name =
              Lookup.resolveIn s.host s.env name := by
            rw [← hs.env, (hR.outline hs.host).resolveIn_eq]
          simp only [hresolve]
          cases hpath : Lookup.resolveIn s.host s.env name with
          | none => exact reportNotFound_agrees hR hs name
          | some path =>
              refine noting_agrees hR.toOutputStable hs _ fun h k hhost => ?_
              exact runProgram_agrees hR (hs.withHost hhost)
                (hlaunch name args path rfl hname hpath)

theorem runWords_keeps {P : Host → Prop} (hP : Kept P) (hs : P s.host) (argv : List Text) :
    P (runWords log argv s).2.host := by
  have hrelated : Related (fun h k => h = k ∧ P h) s s := ⟨rfl, rfl, rfl, hs⟩
  refine (runWords_agrees hP.sessionStable hrelated argv ?_).2.host.2
  rintro name args path - - - h k ⟨rfl, hh⟩
  exact hP.sessionStable.launch ⟨rfl, hh⟩ rfl

end Shell

end LineShell
