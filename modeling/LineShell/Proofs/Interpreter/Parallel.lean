import LineShell.Proofs.Execution.Agreement
import LineShell.Proofs.Execution.Restoration
import LineShell.Proofs.Interpreter.Play

/-!
# Runs on two hosts

A relation between hosts that outlasts output, launches, and the pointing of descriptors at targets
outlasts whole runs: every line has the same result on related hosts.
-/

namespace LineShell

open Host

/-- A relation that also outlasts the opening of targets, and the assignment and the closing of
descriptors. -/
structure HostStable (R : Host → Host → Prop) : Prop extends SessionStable R where
  number : ∀ {h k}, R h k → ∀ fd, h.files.number? fd = k.files.number? fd
  assign : ∀ {h k}, R h k → ∀ fd source,
    R { h with files := h.files.assign fd source } { k with files := k.files.assign fd source }
  close : ∀ {h k}, R h k → ∀ fd, R (h.close fd) (k.close fd)
  openTarget : ∀ {h k}, R h k → ∀ mode path,
    Agree R (h.openTarget mode path) (k.openTarget mode path)
  prepare : ∀ {h k}, R h k → ∀ program argv environ workDir,
    h.prepare program argv environ workDir = k.prepare program argv environ workDir

variable {R : Host → Host → Prop} {h k : Host}

namespace HostStable

theorem settle (hR : HostStable R) (hk : R h k) (fd : Descriptor) :
    R (h.settle fd) (k.settle fd) := by
  unfold Host.settle
  split
  · exact (hR.flush hk).2
  · exact hk

theorem acquire (hR : HostStable R) (hk : R h k) (fd file : Descriptor) :
    Agree R (h.acquire fd file) (k.acquire fd file) := by
  have hsettled := hR.settle hk fd
  have hfree : (h.settle fd).files.firstFree = (k.settle fd).files.firstFree :=
    OpenFiles.firstFree_congr fun other => by rw [hR.number hsettled]
  unfold Host.acquire
  dsimp only
  rw [← hR.number hsettled, ← hR.number hsettled, ← hfree]
  cases (h.settle fd).files.number? fd with
  | none => exact ⟨rfl, hsettled⟩
  | some saved =>
      cases (h.settle fd).files.number? file with
      | none => exact ⟨rfl, hsettled⟩
      | some number => exact ⟨rfl, hR.assign (hR.assign hsettled _ fd) fd file⟩

theorem release (hR : HostStable R) (hk : R h k) (g : Guard) : R (h.release g) (k.release g) :=
  hR.close (hR.assign (hR.settle hk g.descriptor) g.descriptor g.saved) g.saved

theorem note (hR : HostStable R) (hk : R h k) (log : Log) (e : Log.Event) :
    Agree R (h.note log e) (k.note log e) :=
  hR.toOutputStable.note hk log e

theorem report (hR : HostStable R) (hk : R h k) (e : ShellError) :
    Agree R (Interpreter.report e h) (Interpreter.report e k) :=
  hR.writeStream (hR.flush hk).2 .stderr _

theorem readLine (hR : HostStable R) (hk : R h k) (prompt : Text) (source : Source) :
    (source.readLine prompt h).1 = (source.readLine prompt k).1 ∧
      (source.readLine prompt h).2.1 = (source.readLine prompt k).2.1 ∧
      R (source.readLine prompt h).2.2 (source.readLine prompt k).2.2 := by
  have hprompt : Agree R (Source.printPrompt h prompt) (Source.printPrompt k prompt) := by
    obtain ⟨printed, h', k', hprinted, hprinted', hrel⟩ := (hR.print hk prompt).exists_eq
    unfold Source.printPrompt
    rw [hprinted, hprinted']
    cases printed with
    | error e => exact ⟨rfl, hrel⟩
    | ok u => exact hR.flush hrel
  obtain ⟨shown, h', k', hshown, hshown', hrel⟩ := hprompt.exists_eq
  cases source with
  | script lines => cases lines <;> exact ⟨rfl, rfl, hk⟩
  | input data =>
      simp only [Source.readLine, hshown, hshown']
      cases shown with
      | error e => exact ⟨rfl, rfl, hrel⟩
      | ok u =>
          rcases Source.takeLine data with ⟨_ | ⟨b, piece⟩, rest⟩ <;> exact ⟨rfl, rfl, hrel⟩
  | unreadable cause =>
      simp only [Source.readLine, hshown, hshown']
      cases shown <;> exact ⟨rfl, rfl, hrel⟩

end HostStable

namespace Shell

variable {s s' : Shell} {log : Log} {next : Action}

def Concurs (R : Host → Host → Prop) (next : Action) : Prop :=
  ∀ s s', Related R s s' → Agrees R (next s) (next s')

theorem Agrees.exists_eq {a b : Except ExecError Outcome × Shell} (hab : Agrees R a b) :
    ∃ result t t', a = (result, t) ∧ b = (result, t') ∧ Related R t t' :=
  ⟨a.1, a.2, b.2, rfl, Prod.ext hab.1.symm rfl, hab.2⟩

theorem concurs_runWords (hR : HostStable R) (argv : List Text) :
    Concurs R (runWords log argv) := by
  intro s s' hs
  refine runWords_agrees hR.toSessionStable hs argv ?_
  intro name args path _ _ _ h k hk
  exact hR.launch hk (hR.prepare hk _ _ _ _)

theorem concurs_noting (hR : HostStable R) (hnext : Concurs R next) (e : Log.Event) :
    Concurs R (noting log e next) := by
  intro s s' hs
  exact noting_agrees hR.toOutputStable hs e fun h k hk => hnext _ _ (hs.withHost hk)

theorem concurs_holding (hR : HostStable R) (hnext : Concurs R next) (g : Guard) :
    Concurs R (holding log g next) := by
  intro s s' hs
  obtain ⟨result, t, t', hdone, hdone', ht⟩ := (hnext s s' hs).exists_eq
  simp only [holding, hdone, hdone']
  exact ⟨rfl, ht.withHost (hR.note (hR.release ht.host g) log _).2⟩

theorem concurs_closing (hR : HostStable R) (hnext : Concurs R next) (fd : Descriptor) :
    Concurs R (closing fd next) :=
  fun _ _ hs => hnext _ _ (hs.withHost (hR.close hs.host fd))

theorem concurs_pointing (hR : HostStable R) (hnext : Concurs R next) (stream : Stream)
    (mode : WriteMode) (path : Text) : Concurs R (pointing log stream mode path next) := by
  intro s s' hs
  obtain ⟨opened, h, k, hopen, hopen', hk⟩ := (hR.openTarget hs.host mode path).exists_eq
  simp only [pointing, hopen, hopen']
  cases opened with
  | error e => exact ⟨rfl, hs.withHost hk⟩
  | ok file =>
      obtain ⟨acquired, h', k', hacquire, hacquire', hk'⟩ :=
        (hR.acquire hk stream.descriptor file).exists_eq
      simp only [hacquire, hacquire']
      cases acquired with
      | error e => exact ⟨rfl, hs.withHost (hR.close hk' file)⟩
      | ok g =>
          have hheld : Concurs R (holding log g (closing file next)) :=
            concurs_holding hR (concurs_closing hR hnext file) g
          exact concurs_noting hR hheld _ _ _ (hs.withHost hk')

theorem concurs_redirecting (hR : HostStable R) (hnext : Concurs R next) (stream : Stream)
    (redirection : Option Redirection) :
    Concurs R (redirecting log stream next redirection) := by
  cases redirection with
  | none => exact hnext
  | some r =>
      intro s s' hs
      simp only [redirecting, ← hs.env]
      exact concurs_noting hR (concurs_pointing hR hnext stream r.mode _) _ s s' hs

theorem concurs_execute (hR : HostStable R) (c : Command) : Concurs R (execute log c) :=
  concurs_redirecting hR (concurs_redirecting hR (concurs_runWords hR c.argv) .stderr c.stderr)
    .stdout c.stdout

theorem evalLine_agrees (hR : HostStable R) (hs : Related R s s') (line : Text) :
    (Session.evalLine log (execute log) line s).1 =
        (Session.evalLine log (execute log) line s').1 ∧
      Related R (Session.evalLine log (execute log) line s).2
        (Session.evalLine log (execute log) line s').2 := by
  have hscanned := hs.withHost (hR.note hs.host log (.scanned (Words.ofLine line))).2
  rw [evalLine_eq, evalLine_eq]
  cases Command.ofLine line with
  | error e => exact ⟨rfl, hscanned⟩
  | ok c =>
      obtain ⟨hresult, hrel⟩ := concurs_execute hR c _ _ hscanned
      exact ⟨congrArg (Except.mapError ShellError.exec) hresult, hrel⟩

end Shell

namespace Interpreter

variable {i j : Interpreter LogState}

structure Related (R : Host → Host → Prop) (i j : Interpreter LogState) : Prop where
  config : i.config = j.config
  log : i.log = j.log
  source : i.source = j.source
  session : Shell.Related R i.session j.session

theorem settle_agrees (hR : HostStable R) (hi : Related R i j)
    (result : Except ShellError Outcome) :
    (i.settle result).1 = (j.settle result).1 ∧
      Related R (i.settle result).2 (j.settle result).2 := by
  have hwith : ∀ {h k}, R h k → Related R (i.withHost h) (j.withHost k) := fun hk =>
    ⟨hi.config, hi.log, hi.source, hi.session.withHost hk⟩
  cases result with
  | error e =>
      obtain ⟨reported, h, k, hreport, hreport', hk⟩ := (hR.report hi.session.host e).exists_eq
      simp only [settle, hreport, hreport']
      cases reported <;> exact ⟨rfl, hwith hk⟩
  | ok outcome =>
      cases outcome with
      | leave => exact ⟨rfl, hi⟩
      | code status =>
          refine ⟨rfl, hwith ?_⟩
          rw [← hi.log]
          exact (hR.note hi.session.host i.log (.lineDone status)).2

theorem Related.withSession (hi : Related R i j) {s t : Shell} (hs : Shell.Related R s t) :
    Related R { i with session := s } { j with session := t } :=
  ⟨hi.config, hi.log, hi.source, hs⟩

theorem Related.read (hi : Related R i j) {h k : Host} (hk : R h k) (source : Source) :
    Related R { i.withHost h with source := source } { j.withHost k with source := source } :=
  ⟨hi.config, hi.log, rfl, hi.session.withHost hk⟩

def answer (i : Interpreter LogState) :
    Except IOError (Option Text) → Option (Except ShellError Unit) × Interpreter LogState
  | .error e => (some (.error (.io e)), i)
  | .ok none =>
      match i.config.eof with
      | .exit => (some (.ok ()), i.withHost (i.session.host.note i.log .endOfInput).2)
      | .proceed => (none, i)
  | .ok (some line) =>
      let (result, session) := Session.evalLine i.log (Shell.execute i.log) line i.session
      settle { i with session := session } result

theorem turn_eq (i : Interpreter LogState) :
    i.turn (Shell.execute i.log) =
      let (line, source, h) := i.source.readLine i.config.prompt i.session.host
      answer { i.withHost h with source := source } line := by
  unfold turn
  rcases i.source.readLine i.config.prompt i.session.host with ⟨_ | _ | line, source, h⟩ <;> rfl

theorem answer_agrees (hR : HostStable R) (hi : Related R i j)
    (line : Except IOError (Option Text)) :
    (answer i line).1 = (answer j line).1 ∧ Related R (answer i line).2 (answer j line).2 := by
  rcases line with e | _ | line
  · exact ⟨rfl, hi⟩
  · have hnoted := (hR.note hi.session.host i.log .endOfInput).2
    unfold answer
    rw [← hi.config, ← hi.log]
    cases i.config.eof with
    | exit => exact ⟨rfl, hi.config, hi.log, hi.source, hi.session.withHost hnoted⟩
    | proceed => exact ⟨rfl, hi⟩
  · obtain ⟨hresult, hrel⟩ := @Shell.evalLine_agrees _ _ _ i.log hR hi.session line
    have hlog : Session.evalLine j.log (Shell.execute j.log) line j.session =
        Session.evalLine i.log (Shell.execute i.log) line j.session := by rw [hi.log]
    unfold answer
    dsimp only
    rw [hlog, ← hresult]
    exact settle_agrees hR (hi.withSession hrel) _

theorem turn_agrees (hR : HostStable R) (hi : Related R i j) :
    (i.turn (Shell.execute i.log)).1 = (j.turn (Shell.execute j.log)).1 ∧
      Related R (i.turn (Shell.execute i.log)).2 (j.turn (Shell.execute j.log)).2 := by
  obtain ⟨hline, hsource, hk⟩ := hR.readLine hi.session.host i.config.prompt i.source
  rw [turn_eq, turn_eq, ← hi.config, ← hi.source]
  dsimp only
  rw [← hline, ← hsource]
  exact answer_agrees hR (hi.read hk _) _

theorem runFor_agrees (hR : HostStable R) (turns : Nat) (hi : Related R i j) :
    (runFor (Shell.execute i.log) turns i).1 = (runFor (Shell.execute j.log) turns j).1 ∧
      Related R (runFor (Shell.execute i.log) turns i).2
        (runFor (Shell.execute j.log) turns j).2 := by
  induction turns generalizing i j with
  | zero => exact ⟨rfl, hi⟩
  | succ turns ih =>
      obtain ⟨hresult, hrel⟩ := turn_agrees hR hi
      have hlog := Shell.log_turn (Shell.execute i.log) i
      have hlog' := Shell.log_turn (Shell.execute j.log) j
      unfold runFor
      generalize i.turn (Shell.execute i.log) = turn at hresult hrel hlog ⊢
      generalize j.turn (Shell.execute j.log) = turn' at hresult hrel hlog' ⊢
      obtain ⟨result, i'⟩ := turn
      obtain ⟨result', j'⟩ := turn'
      obtain rfl : result = result' := hresult
      cases result with
      | some result => exact ⟨rfl, hrel⟩
      | none =>
          rw [← show i'.log = i.log from hlog, ← show j'.log = j.log from hlog']
          exact ih hrel

end Interpreter

end LineShell
