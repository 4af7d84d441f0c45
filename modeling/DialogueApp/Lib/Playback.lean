import Mathlib.Data.List.Basic

/-!
# Playing clips one at a time

A screen holds one audio player at most, made from one clip.  A new player takes the place of the
old one, which is heard no more.  A player is silent until it is played, and again when it is stopped
or its clip has come to its end.  `played` is the history of the clips that have been started.
-/

universe u

/-- An audio player, by the clip it was made from. -/
structure AudioPlayer (κ : Type u) where
  clip : κ
  playing : Bool
  deriving DecidableEq, Repr

/-- The player of a screen and the clips it has started so far, in order. -/
structure Playback (κ : Type u) where
  player : Option (AudioPlayer κ)
  played : List κ
  deriving DecidableEq, Repr

namespace Playback

variable {κ : Type u} (p : Playback κ)

/-- No player yet. -/
def new : Playback κ := ⟨none, []⟩

/-- The clip of the player that is there. -/
def loaded : Option κ := p.player.map AudioPlayer.clip

/-- A clip is playing. -/
def isPlaying : Bool := p.player.any AudioPlayer.playing

/-- Put a new player in the place of the old one. -/
def load (clip : κ) : Playback κ := { p with player := some ⟨clip, false⟩ }

/-- Play the clip of the player, if there is one and it does not play yet. -/
def play : Playback κ :=
  match p.player with
  | some ⟨clip, false⟩ => { player := some ⟨clip, true⟩, played := p.played ++ [clip] }
  | _ => p

/-- Stop the player, if there is one.  A clip that comes to its end stops in the same way. -/
def stop : Playback κ := { p with player := p.player.map fun a => { a with playing := false } }

@[simp] theorem loaded_new : (new : Playback κ).loaded = none := rfl

@[simp] theorem isPlaying_new : (new : Playback κ).isPlaying = false := rfl

@[simp] theorem loaded_load (clip : κ) : (p.load clip).loaded = some clip := rfl

@[simp] theorem isPlaying_load (clip : κ) : (p.load clip).isPlaying = false := rfl

@[simp] theorem played_load (clip : κ) : (p.load clip).played = p.played := rfl

@[simp] theorem loaded_stop : p.stop.loaded = p.loaded := by
  unfold loaded stop
  cases p.player <;> rfl

@[simp] theorem isPlaying_stop : p.stop.isPlaying = false := by
  unfold isPlaying stop
  cases p.player <;> rfl

@[simp] theorem played_stop : p.stop.played = p.played := rfl

/-- A player that has just been loaded plays its clip. -/
@[simp] theorem loaded_play_load (clip : κ) : (p.load clip).play.loaded = some clip := rfl

@[simp] theorem isPlaying_play_load (clip : κ) : (p.load clip).play.isPlaying = true := rfl

@[simp] theorem played_play_load (clip : κ) : (p.load clip).play.played = p.played ++ [clip] := rfl

end Playback
