import DesignRecords.Proofs.Workspace.Failing
import DesignRecords.Proofs.Workspace.Matching

namespace DesignRecords

/-- What is to be seen of a disk, path by path. -/
structure Sight where
  isDirectory : Path → Bool
  list : Path → Except Fault (List Text)
  readText : Path → Except Fault Text

namespace Disturbances

variable (ds : Disturbances) (d : Disk)

/-- What call `n` answers to the question for a directory. -/
def directoryAt (n : Nat) (p : Path) : Bool :=
  Disturbance.answer (ds n ⟨.isDirectory, p⟩) (d.isDirectory p)

/-- What comes of the listing of a directory in call `n`. -/
def listAt (n : Nat) (p : Path) : Except Fault (List Text) :=
  Disturbance.outcome (ds n ⟨.list, p⟩) (d.list p)

/-- What comes of the reading of a file in call `n`. -/
def textAt (n : Nat) (p : Path) : Except Fault Text :=
  Disturbance.outcome (ds n ⟨.readText, p⟩) (d.readText p)

/-- What is seen of a disk when each call is made at a moment of its own. -/
def sight (moment : Call → Nat) : Sight where
  isDirectory p := ds.directoryAt d (moment ⟨.isDirectory, p⟩) p
  list p := ds.listAt d (moment ⟨.list, p⟩) p
  readText p := ds.textAt d (moment ⟨.readText, p⟩) p

/-- A disk is seen as it is where nothing goes wrong. -/
theorem sight_none (moment : Call → Nat) :
    none.sight d moment = ⟨d.isDirectory, d.list, d.readText⟩ := rfl

end Disturbances

variable {α β ε : Type} {ds : Disturbances} {d : Disk} {n : Nat} {p : Path} {as : List α}

theorem Disturbances.list_of_listAt {names : List Text} (h : ds.listAt d n p = .ok names) :
    d.list p = .ok names := by
  unfold listAt Disturbance.outcome at h
  split at h
  · cases h
  · exact h

theorem Disturbances.isDirectory_apply :
    (liftM (ds.isDirectory p) : ExceptT ε (StateM Session) Bool) ⟨d, n⟩ =
      (.ok (ds.directoryAt d n p), ⟨d, n + 1⟩) := ask_apply

theorem Disturbances.list_apply : ds.list p ⟨d, n⟩ = (ds.listAt d n p, ⟨d, n + 1⟩) :=
  perform_apply rfl

theorem Disturbances.readText_apply : ds.readText p ⟨d, n⟩ = (ds.textAt d n p, ⟨d, n + 1⟩) :=
  perform_apply rfl

/-- Work that makes one call for each member of a list without repetitions gathers what each member
yields at a moment of its own. -/
theorem gather_once [DecidableEq α] {work : α → ExceptT ε (StateM Session) (List β)}
    {out : α → Nat → List β} (h : ∀ a n, work a ⟨d, n⟩ = (.ok (out a n), ⟨d, n + 1⟩))
    (hn : as.Nodup) (n : Nat) : ∃ moment : α → Nat,
      (∀ a, n ≤ moment a ∧ moment a ≤ n + as.length) ∧
      gather work as ⟨d, n⟩ =
        (.ok (as.flatMap fun a => out a (moment a)), ⟨d, n + as.length⟩) := by
  induction as generalizing n with
  | nil => exact ⟨fun _ => n, fun _ => ⟨Nat.le_refl n, Nat.le_refl n⟩, rfl⟩
  | cons a as ih =>
    obtain ⟨hout, hn⟩ := List.nodup_cons.mp hn
    obtain ⟨moment, hm, hg⟩ := ih hn (n + 1)
    have hcount : n + 1 + as.length = n + (a :: as).length := by
      rw [List.length_cons]
      omega
    rw [hcount] at hm hg
    refine ⟨Function.update moment a n, fun x => ?_, ?_⟩
    · by_cases hx : x = a
      · rw [hx, Function.update_self]
        omega
      · rw [Function.update_of_ne hx]
        have hb := hm x
        omega
    · have hrest : ∀ x ∈ as, out x (Function.update moment a n x) = out x (moment x) := by
        intro x hx
        rw [Function.update_of_ne (by rintro rfl; exact hout hx)]
      refine gather_cons_eq_ok.mpr ⟨_, _, _, h a n, hg, ?_⟩
      rw [List.flatMap_cons, Function.update_self, List.flatMap_congr hrest]

end DesignRecords
