import LineShell.Proofs.Host.Preparation
import LineShell.Proofs.Interpreter.Parallel

/-!
# What a terminal has received

What a terminal has received so far has no part in what a session does.  So two sessions that differ
in nothing else do the same, and what they then write there is the same.
-/

namespace LineShell

open Host

namespace Host

def withReceived (h : Host) (stream : Stream) (data : Bytes) : Host :=
  match stream with
  | .stdout => { h with out := data }
  | .stderr => { h with err := data }

section withReceived

variable (h : Host) (stream : Stream) (data : Bytes)

@[simp] theorem tree_withReceived : (h.withReceived stream data).tree = h.tree := by
  cases stream <;> rfl

@[simp] theorem workDir_withReceived : (h.withReceived stream data).workDir = h.workDir := by
  cases stream <;> rfl

@[simp] theorem files_withReceived : (h.withReceived stream data).files = h.files := by
  cases stream <;> rfl

@[simp] theorem pending_withReceived : (h.withReceived stream data).pending = h.pending := by
  cases stream <;> rfl

end withReceived

/-- The second host is the first with other data in front of what a terminal has received since. -/
def Ahead (stream : Stream) (before before' : Bytes) (h k : Host) : Prop :=
  ∃ later, h.received stream = before ++ later ∧ k = h.withReceived stream (before' ++ later)

variable {stream : Stream} {before before' : Bytes} {h k : Host}

theorem ahead_writeTo (hk : Ahead stream before before' h k) (number : Nat) (data : Bytes) :
    Agree (Ahead stream before before') (h.writeTo number data) (k.writeTo number data) := by
  have hk' := hk
  obtain ⟨later, hreceived, rfl⟩ := hk
  unfold writeTo
  rw [files_withReceived, tree_withReceived]
  cases h.files.descriptions[number]? with
  | none => exact ⟨rfl, hk'⟩
  | some d =>
      dsimp only
      cases d.sink with
      | unlinked => exact ⟨rfl, hk'⟩
      | device device => cases device <;> exact ⟨rfl, hk'⟩
      | terminal other =>
          cases stream <;> cases other
          case stdout.stdout | stderr.stderr =>
            refine ⟨rfl, later ++ data, ?_, ?_⟩
            · dsimp only [received] at hreceived ⊢
              rw [hreceived, List.append_assoc]
            · simp [withReceived]
          case stdout.stderr | stderr.stdout => exact ⟨rfl, later, hreceived, rfl⟩
      | file p =>
          dsimp only
          cases h.tree.get? p with
          | none => exact ⟨rfl, hk'⟩
          | some entry =>
              cases entry with
              | file perms content => cases stream <;> exact ⟨rfl, later, hreceived, rfl⟩
              | directory _ | link _ | device _ => exact ⟨rfl, hk'⟩

theorem ahead_openToWrite (hk : Ahead stream before before' h k) (mode : WriteMode) (path : Text) :
    Agree (Ahead stream before before') (h.openToWrite mode path) (k.openToWrite mode path) := by
  have hk' := hk
  obtain ⟨later, hreceived, rfl⟩ := hk
  unfold openToWrite
  rw [tree_withReceived, workDir_withReceived]
  cases h.tree.locate h.workDir .create path with
  | error e => exact ⟨rfl, hk'⟩
  | ok arrival =>
      cases arrival with
      | vacant p =>
          dsimp only
          split
          · cases stream <;> exact ⟨rfl, later, hreceived, rfl⟩
          · exact ⟨rfl, hk'⟩
      | found p =>
          dsimp only
          cases h.tree.get? p with
          | none => exact ⟨rfl, hk'⟩
          | some entry =>
              cases entry with
              | directory _ | link _ => exact ⟨rfl, hk'⟩
              | device device => cases stream <;> exact ⟨rfl, later, hreceived, rfl⟩
              | file perms content =>
                  dsimp only
                  split
                  · exact ⟨rfl, hk'⟩
                  · cases stream <;> cases mode <;> exact ⟨rfl, later, hreceived, rfl⟩

theorem hostStable_ahead (stream : Stream) (before before' : Bytes) :
    HostStable (Ahead stream before before') where
  pending := by
    rintro h k ⟨later, -, rfl⟩
    exact (pending_withReceived h stream _).symm
  await := by
    rintro h k ⟨later, hreceived, rfl⟩ waiting
    cases stream <;> exact ⟨later, hreceived, rfl⟩
  write := by
    intro h k hk other data
    have hfiles : k.files = h.files := by
      obtain ⟨later, -, rfl⟩ := hk
      exact files_withReceived h stream _
    unfold write
    rw [hfiles]
    split
    · exact ⟨rfl, hk⟩
    · cases h.files.number? other.descriptor with
      | none => exact ⟨rfl, hk⟩
      | some number => exact ahead_writeTo hk number data
  outline := by
    rintro h k ⟨later, -, rfl⟩
    refine ⟨(workDir_withReceived h stream _).symm, ?_⟩
    rw [tree_withReceived]
    exact .refl h.tree
  record := by
    rintro h k ⟨later, hreceived, rfl⟩ l
    cases stream <;> exact ⟨later, hreceived, rfl⟩
  number := by
    rintro h k ⟨later, -, rfl⟩ fd
    rw [files_withReceived]
  assign := by
    rintro h k ⟨later, hreceived, rfl⟩ fd source
    cases stream <;> exact ⟨later, hreceived, rfl⟩
  close := by
    rintro h k ⟨later, hreceived, rfl⟩ fd
    cases stream <;> exact ⟨later, hreceived, rfl⟩
  openTarget := by
    intro h k hk mode path
    obtain ⟨opened, h', k', hopen, hopen', hrel⟩ := (ahead_openToWrite hk mode path).exists_eq
    unfold Host.openTarget
    rw [hopen, hopen']
    cases opened <;> exact ⟨rfl, hrel⟩
  prepare := by
    rintro h k ⟨later, -, rfl⟩ program argv environ workDir
    apply prepare_congr <;> simp

end Host

end LineShell
