import Mathlib.Algebra.Field.Rat
import Mathlib.Data.Rat.Defs
import Ssuge.GuardedRun

/-! The time that the main loop passes on. A frame reads the clock twice: its time step goes up
to the first reading, and the next one starts from the second. -/

namespace Ssuge.ElapsedTime

open GuardedRun

def SDL_GetTicks (time : Nat) : UInt32 := UInt32.ofNat time

/-- The times at which a frame reads the clock. -/
structure Readings where
  first : Nat
  second : Nat

section loop

variable {F : Type} [Zero F] [DecidableEq F]
variable (inSeconds : UInt32 → F) (sixtieth : F)

def elapsed (mLastTick : UInt32) (frame : Readings) : UInt32 :=
  SDL_GetTicks frame.first - mLastTick

/-- The beginning of a frame: `dt` and the new `mLastTick`. -/
def updateTime (mLastTick : UInt32) (frame : Readings) : F × UInt32 :=
  let dt := inSeconds (elapsed mLastTick frame)
  let mLastTick := SDL_GetTicks frame.second
  (if dt = 0 then sixtieth else dt, mLastTick)

/-- The frames as far as `mLastTick` is concerned. -/
def frameStep (mLastTick : UInt32) (frame : Readings) : Option UInt32 :=
  some (updateTime inSeconds sixtieth mLastTick frame).2

def WithoutFallback (mLastTick : UInt32) (frame : Readings) : Prop :=
  inSeconds (elapsed mLastTick frame) ≠ 0

instance (mLastTick : UInt32) (frame : Readings) :
    Decidable (WithoutFallback inSeconds mLastTick frame) :=
  inferInstanceAs (Decidable (_ ≠ _))

def total : UInt32 → List Readings → Nat
  | _, [] => 0
  | mLastTick, frame :: frames =>
      (elapsed mLastTick frame).toNat +
        total (updateTime inSeconds sixtieth mLastTick frame).2 frames

/-- Over frames of the loop that follow each other, none of them with the fallback, the time
steps add up to the change of `mLastTick`. -/
def AccountsForAll (start : Nat) (frames : List Readings) : Prop :=
  ∀ before stretch, before ++ stretch <+: frames → ∀ first last,
    runSteps (frameStep inSeconds sixtieth) (SDL_GetTicks start) before = some first →
    runSteps (frameStep inSeconds sixtieth) first stretch = some last →
    Along (frameStep inSeconds sixtieth) (WithoutFallback inSeconds) first stretch →
    UInt32.ofNat (total inSeconds sixtieth first stretch) = last - first

def SameReadings (mLastTick : UInt32) (frame : Readings) : Prop :=
  WithoutFallback inSeconds mLastTick frame →
    SDL_GetTicks frame.second = SDL_GetTicks frame.first

def gap (frame : Readings) : UInt32 := SDL_GetTicks frame.second - SDL_GetTicks frame.first

def between : List Readings → UInt32
  | [] => 0
  | frame :: frames => gap frame + between frames

variable {inSeconds sixtieth}

/-- The time steps and what lies between the readings telescope. -/
theorem total_add_between {first last : UInt32} {stretch : List Readings}
    (reached : runSteps (frameStep inSeconds sixtieth) first stretch = some last) :
    UInt32.ofNat (total inSeconds sixtieth first stretch) + between stretch = last - first := by
  induction stretch generalizing first with
  | nil =>
      obtain rfl := Option.some.inj reached
      exact (UInt32.sub_self first).symm
  | cons frame frames ih =>
      have rest : UInt32.ofNat (total inSeconds sixtieth (SDL_GetTicks frame.second) frames) +
          between frames = last - SDL_GetTicks frame.second := ih reached
      calc UInt32.ofNat (total inSeconds sixtieth first (frame :: frames)) +
            between (frame :: frames)
        _ = (elapsed first frame + gap frame) + (last - SDL_GetTicks frame.second) := by
            rw [total, UInt32.ofNat_add, UInt32.ofNat_toNat, between, ← rest, updateTime]
            grind
        _ = last - first := by
            rw [elapsed, gap]
            grind

theorem between_eq_zero {first : UInt32} {stretch : List Readings}
    (free : Along (frameStep inSeconds sixtieth) (WithoutFallback inSeconds) first stretch)
    (same : Along (frameStep inSeconds sixtieth) (SameReadings inSeconds) first stretch) :
    between stretch = 0 := by
  induction stretch generalizing first with
  | nil => rfl
  | cons frame frames ih =>
      obtain ⟨frame_free, free⟩ := free
      obtain ⟨frame_same, same⟩ := same
      rw [between, ih (free _ rfl) (same _ rfl), gap, frame_same frame_free, UInt32.sub_self,
        UInt32.add_zero]

/-- The main loop accounts for all elapsed time exactly when each frame without the fallback
sees the same time twice. -/
theorem accountsForAll_iff (inSeconds : UInt32 → F) (sixtieth : F) (start : Nat)
    (frames : List Readings) :
    AccountsForAll inSeconds sixtieth start frames ↔
      Along (frameStep inSeconds sixtieth) (SameReadings inSeconds) (SDL_GetTicks start)
        frames := by
  constructor
  · intro all
    refine along_iff_forall.mpr fun before frame shorter first reached free => ?_
    have accounted := all before [frame] shorter first (SDL_GetTicks frame.second) reached rfl
      ⟨free, fun _ _ => trivial⟩
    have change : UInt32.ofNat (total inSeconds sixtieth first [frame]) + between [frame] =
        SDL_GetTicks frame.second - first := total_add_between rfl
    rw [accounted, between, between, gap] at change
    grind
  · rintro same before stretch ⟨after, rfl⟩ first last reached reached' free
    rw [List.append_assoc] at same
    rw [← total_add_between reached', between_eq_zero free (same.after reached).start,
      UInt32.add_zero]

end loop

def readTimes (start : Nat) (frames : List Readings) : List Nat :=
  start :: frames.flatMap fun frame => [frame.first, frame.second]

/-- The clock goes on by one and by two milliseconds within the frames. -/
theorem not_accountsForAll :
    (readTimes 0 [⟨16, 17⟩, ⟨33, 35⟩]).Pairwise (· ≤ ·) ∧
    ¬ AccountsForAll (fun ticks => (ticks.toNat : ℚ) / 1000) (1 / 60) 0 [⟨16, 17⟩, ⟨33, 35⟩] := by
  refine ⟨by decide, fun all => ?_⟩
  have lost := all [] [⟨16, 17⟩, ⟨33, 35⟩] (List.prefix_refl _) 0 35 rfl rfl
    (by decide +kernel)
  exact absurd lost (by decide)

end Ssuge.ElapsedTime
