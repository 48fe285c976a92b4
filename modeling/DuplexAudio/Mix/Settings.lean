/-
  Settings of the mix: a master volume, and for each track the buses that it feeds and its gain on
  each of them.

  Every setting is a register of its own.  A setter clamps what it is given, writes its own
  registers and leaves all others alone; a setter of a track that does not exist writes nothing.
-/
import DuplexAudio.Format

namespace DuplexAudio

/-- How one track feeds the two buses. -/
structure Route where
  gainMain : Float32
  gainCue : Float32
  toMain : Bool
  toCue : Bool
  deriving DecidableEq

namespace Route

/-- Unity gains, main bus only. -/
def unity : Route := ⟨1, 1, true, false⟩

/-- On no bus, with no gain. -/
def muted : Route := ⟨0, 0, false, false⟩

instance : Inhabited Route := ⟨unity⟩

end Route

/-- All settings of the mix. -/
structure MixSettings where
  /-- Gain after the mix, with no upper bound. -/
  master : Float32
  routes : Vector Route trackCount
  deriving DecidableEq

/-- A level held between 0 and 1; what is not a number counts as 0. -/
def clampUnit (v : Float32) : Float32 :=
  if v.isNaN ∨ v < 0 then 0 else if 1 < v then 1 else v

/-- A level held at 0 or above; what is not a number counts as 0. -/
def clampVolume (v : Float32) : Float32 := if v.isNaN ∨ v < 0 then 0 else v

namespace MixSettings

/-- Unity volume, every track to the main bus only. -/
def unity : MixSettings := ⟨1, Vector.replicate trackCount Route.unity⟩

instance : Inhabited MixSettings := ⟨unity⟩

/-- The route of one track. -/
def route (s : MixSettings) (t : Fin trackCount) : Route := s.routes[t]

/-- The settings with one route changed, or as they are if there is no such track. -/
def modifyRoute (s : MixSettings) (track : Nat) (f : Route → Route) : MixSettings :=
  if h : track < trackCount then { s with routes := s.routes.set track (f s.routes[track]) h }
  else s

/-- Sets the master volume. -/
def setVolume (s : MixSettings) (volume : Float32) : MixSettings :=
  { s with master := clampVolume volume }

/-- Chooses the buses that a track feeds. -/
def setBuses (s : MixSettings) (track : Nat) (toMain toCue : Bool) : MixSettings :=
  s.modifyRoute track fun r => { r with toMain, toCue }

/-- Sets the gains of a track. -/
def setGains (s : MixSettings) (track : Nat) (main cue : Float32) : MixSettings :=
  s.modifyRoute track fun r => { r with gainMain := clampUnit main, gainCue := clampUnit cue }

@[simp] theorem route_modifyRoute_self (s : MixSettings) (t : Fin trackCount) (f : Route → Route) :
    (s.modifyRoute t f).route t = f (s.route t) := by
  simp [modifyRoute, route]

theorem route_modifyRoute_ne (s : MixSettings) {track : Nat} {t : Fin trackCount}
    (f : Route → Route) (h : track ≠ t) : (s.modifyRoute track f).route t = s.route t := by
  unfold modifyRoute
  split
  · simp [route, h]
  · rfl

@[simp] theorem master_modifyRoute (s : MixSettings) (track : Nat) (f : Route → Route) :
    (s.modifyRoute track f).master = s.master := by
  unfold modifyRoute
  split <;> rfl

end MixSettings

end DuplexAudio
