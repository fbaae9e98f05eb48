import LineShell.Proofs.Execution.Inscription
import LineShell.Proofs.Interpreter.Evaluations

/-!
# What a file holds after a run

If only `echo` lines redirect a stream to a file, the file holds in the end what they made of it,
one after another: each redirection that truncates empties it, each `echo` whose standard output
goes there adds its line, and what the log notes while standard error goes there is added too.
-/

namespace LineShell

open Host

namespace OpenFiles.Elsewhere

variable {f : Place} {s t : Shell} {log : Log}

theorem secondFree {h k : Host} (he : h.files.Elsewhere f) (hk : Restored h k) :
    k.files.secondFree = h.files.secondFree := by
  refine OpenFiles.secondFree_congr (hk.number fun stream hclosed => ?_)
  obtain ⟨n, hn, -⟩ := he.number stream
  rw [hclosed] at hn
  cases hn

theorem outputOnly (he : s.host.files.Elsewhere f) (ho : Interpreter.OutputOnly s t) :
    t.host.files.Elsewhere f ∧ t.host.files.secondFree = s.host.files.secondFree ∧
      t.host.tree.content? f = s.host.tree.content? f := by
  have hspared := ho.kept (kept_spares f (s.host.tree.get? f)) ⟨he.spares, rfl⟩
  exact ⟨he.restored ho.restored, he.secondFree ho.restored, FileTree.content?_congr hspared.2⟩

end OpenFiles.Elsewhere

def Evaluation.inscription? (f : Place) (e : Evaluation) : Option Inscription :=
  match Command.ofLine e.line with
  | .error _ => none
  | .ok c => Shell.inscription? f e.before c

namespace Interpreter

variable {f : Place} {e : Evaluation} {log : Log}

theorem content?_evalLine (he : e.before.host.files.Elsewhere f)
    (heval : Session.evalLine log (Shell.execute log) e.line e.before = (e.result, e.after))
    (hecho : ∀ x, e.inscription? f = some x → x.words.head? = some Builtin.echo.name) :
    e.after.host.tree.content? f =
      (e.inscription? f).toList.foldl
        (Inscription.extend log e.before.host.files.secondFree)
        (e.before.host.tree.content? f) := by
  obtain ⟨h, hnote, hother, hcontent, htarget⟩ := he.note log (.scanned (Words.ofLine e.line))
  have hfree :=
    he.secondFree (Shell.restored_note log e.before.host (.scanned (Words.ofLine e.line)))
  rw [hnote] at hfree
  rw [Shell.evalLine_eq, hnote] at heval
  unfold Evaluation.inscription? at hecho ⊢
  rw [← hcontent]
  cases hline : Command.ofLine e.line with
  | error cause =>
      simp only [hline] at heval ⊢
      have hafter : Shell.withHost e.before h = e.after := congrArg Prod.snd heval
      rw [← hafter]
      rfl
  | ok c =>
      have hsame : Shell.inscription? f (Shell.withHost e.before h) c =
          Shell.inscription? f e.before c := by
        simp only [Shell.inscription?, Shell.withHost, htarget]
      simp only [hline] at heval hecho ⊢
      have hs : (Shell.withHost e.before h).host.files.Elsewhere f := hother
      have hafter : (Shell.execute log c (Shell.withHost e.before h)).2 = e.after :=
        congrArg Prod.snd heval
      rw [← hafter, ← hsame, ← hfree]
      rw [← hsame] at hecho
      exact Shell.content?_execute hs hline hecho

variable {i : Interpreter LogState}

theorem content?_turn (hown : i.session.own = .intact) (he : i.session.host.files.Elsewhere f)
    (hecho : ∀ x ∈ i.evaluation?.toList.filterMap (·.inscription? f),
      x.words.head? = some Builtin.echo.name) :
    (i.turn (Shell.execute i.log)).2.session.host.tree.content? f =
        (i.evaluation?.toList.filterMap (·.inscription? f)).foldl
          (Inscription.extend i.log i.session.host.files.secondFree)
          (i.session.host.tree.content? f) ∧
      ((i.turn (Shell.execute i.log)).1 = none →
        (i.turn (Shell.execute i.log)).2.session.host.files.Elsewhere f ∧
          (i.turn (Shell.execute i.log)).2.session.host.files.secondFree =
            i.session.host.files.secondFree) := by
  rcases turn_cases i with ⟨hnone, houtput⟩ | ⟨e, source, hsome, hbefore, -, heval, hturn⟩
  · obtain ⟨hother, hfree, hcontent⟩ := he.outputOnly houtput
    rw [hnone]
    exact ⟨hcontent, fun _ => ⟨hother, hfree⟩⟩
  · obtain ⟨hother, hfree, hcontent⟩ := he.outputOnly hbefore
    have hecho' : ∀ x, e.inscription? f = some x → x.words.head? = some Builtin.echo.name := by
      intro x hx
      apply hecho
      rw [hsome]
      simp [hx]
    have hafter := content?_evalLine hother heval hecho'
    have hinscribed : i.evaluation?.toList.filterMap (·.inscription? f) =
        (e.inscription? f).toList := by
      rw [hsome]
      cases hx : e.inscription? f <;> simp [hx]
    rw [hinscribed, hturn, ← hcontent, ← hfree, ← hafter]
    by_cases hleft : e.result = .ok .leave
    · rw [hleft]
      exact ⟨rfl, fun h => by cases h⟩
    · have hintact : e.after.own = .intact := by
        rw [own_evalLine heval hleft, hbefore.own, hown]
      have hrestored := restored_evalLine heval hintact
      obtain ⟨hsettled, hfree', hsame⟩ := (hother.restored hrestored).outputOnly
        (outputOnly_settle { i with source := source, session := e.after } e.result)
      exact ⟨hsame, fun _ => ⟨hsettled, hfree'.trans (hother.secondFree hrestored)⟩⟩

theorem content?_runFor (turns : Nat) (hown : i.session.own = .intact)
    (he : i.session.host.files.Elsewhere f)
    (hecho : ∀ x ∈ (i.evaluations turns).filterMap (·.inscription? f),
      x.words.head? = some Builtin.echo.name) :
    (runFor (Shell.execute i.log) turns i).2.session.host.tree.content? f =
      ((i.evaluations turns).filterMap (·.inscription? f)).foldl
        (Inscription.extend i.log i.session.host.files.secondFree)
        (i.session.host.tree.content? f) := by
  induction turns generalizing i with
  | zero => rfl
  | succ turns ih =>
      unfold evaluations at hecho
      unfold evaluations runFor
      rw [List.filterMap_append] at hecho ⊢
      rw [List.foldl_append]
      obtain ⟨hcontent, helse⟩ := content?_turn hown he fun x hx =>
        hecho x (List.mem_append_left _ hx)
      have hlog := Shell.log_turn (Shell.execute i.log) i
      have hown' := own_turn (i := i)
      rw [← hcontent]
      rcases hturn : i.turn (Shell.execute i.log) with ⟨_ | result, i'⟩
      · rw [hturn] at hlog helse hown' hecho
        obtain ⟨hother, hfree⟩ := helse rfl
        have hlater := ih ((hown' rfl).trans hown) hother fun x hx =>
          hecho x (List.mem_append_right _ hx)
        dsimp only at hlog hfree
        rw [hlog, hfree] at hlater
        exact hlater
      · rfl

theorem extend_of_quiet {log : Log} {saved : Descriptor}
    (hredirected : log.enables (.redirected Stream.stderr.descriptor saved) = false)
    (hbuiltin : log.enables (.builtin Builtin.echo.name) = false) :
    Inscription.extend log saved = Inscription.extend .silent saved := by
  funext content x
  unfold Inscription.extend Inscription.data Log.written
  rw [hredirected, hbuiltin]
  rfl

/-- If only `echo` lines redirect a stream to a file, the file holds after a run what the lines
made of it: one that truncates empties it, one whose standard output goes there adds its words and
a newline, and one whose standard error goes there adds what the log notes meanwhile.  If the log
notes neither that a stream was redirected nor that a builtin runs, that is nothing. -/
theorem content_after_run {f : Place} (hown : i.session.own = .intact)
    (he : i.session.host.files.Elsewhere f) (turns : Nat)
    (hecho : ∀ x ∈ (i.evaluations turns).filterMap (·.inscription? f),
      x.words.head? = some Builtin.echo.name) :
    let after := (runFor (Shell.execute i.log) turns i).2.session.host.tree.content? f
    let before := i.session.host.tree.content? f
    let inscriptions := (i.evaluations turns).filterMap (·.inscription? f)
    let saved := i.session.host.files.secondFree
    after = inscriptions.foldl (Inscription.extend i.log saved) before ∧
      (i.log.enables (.redirected Stream.stderr.descriptor saved) = false →
        i.log.enables (.builtin Builtin.echo.name) = false →
        after = inscriptions.foldl (Inscription.extend .silent saved) before) := by
  intro after before inscriptions saved
  have hrun : after = inscriptions.foldl (Inscription.extend i.log saved) before :=
    content?_runFor turns hown he hecho
  refine ⟨hrun, fun hredirected hbuiltin => ?_⟩
  rw [hrun, extend_of_quiet hredirected hbuiltin]

theorem content_after_run_link :
    let f : Place := ["f".toList, "w".toList]
    let tree := (FileTree.bare.make f (.file 0o644 (Utf8.encode "old\n".toList))).make
      ["l".toList] (.link "w/f".toList)
    let s := Shell.ofParts (.ofVariables "/".toList []) (.start tree Place.root)
    let lines := ["echo a  b > l".toList, "cd w".toList, "echo c > g".toList, "echo >".toList,
      "echo d >> /l".toList, "cat < f".toList, "echo e 2>> ../w/f".toList]
    let i : Interpreter LogState := ⟨.default, .silent, .script lines, s⟩
    (s.own = .intact ∧ s.host.files.Elsewhere f ∧
      ∀ x ∈ (i.evaluations 8).filterMap (·.inscription? f),
        x.words.head? = some Builtin.echo.name) ∧
      (runFor (Shell.execute i.log) 8 i).2.session.host.tree.content? f =
        some (Utf8.encode "a b\nd\n".toList) := by
  intro f tree s lines i
  have he : s.host.files.Elsewhere f := by
    intro stream
    cases stream <;> exact ⟨_, rfl, by decide, by decide⟩
  have hecho : ∀ x ∈ (i.evaluations 8).filterMap (·.inscription? f),
      x.words.head? = some Builtin.echo.name := by decide +kernel
  refine ⟨⟨rfl, he, hecho⟩, ?_⟩
  exact (content_after_run rfl he 8 hecho).1.trans (by decide +kernel)

/-- A log of all that is done tells about an `echo` in the file that standard error leads to, which
would otherwise hold nothing. -/
theorem content_after_run_noted :
    let f : Place := ["f".toList, "w".toList]
    let tree := FileTree.bare.make ["w".toList] (.directory 0o755)
    let s := Shell.ofParts (.ofVariables "/w".toList []) (.start tree ["w".toList])
    let log : Log := ⟨.everywhere Log.Level.debug.rank, false⟩
    let i : Interpreter LogState := ⟨.default, log, .script ["echo a 2> f".toList], s⟩
    let inscriptions := (i.evaluations 2).filterMap (·.inscription? f)
    (s.own = .intact ∧ s.host.files.Elsewhere f ∧
      ∀ x ∈ inscriptions, x.words.head? = some Builtin.echo.name) ∧
      inscriptions.foldl (Inscription.extend .silent s.host.files.secondFree)
        (s.host.tree.content? f) = some [] ∧
      (runFor (Shell.execute i.log) 2 i).2.session.host.tree.content? f ≠ some [] := by
  intro f tree s log i inscriptions
  have he : s.host.files.Elsewhere f := by
    intro stream
    cases stream <;> exact ⟨_, rfl, by decide, by decide⟩
  exact ⟨⟨rfl, he, by decide +kernel⟩, by decide +kernel, by decide +kernel⟩

end Interpreter

end LineShell
