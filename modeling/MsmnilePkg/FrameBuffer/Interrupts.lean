/-
  MsmnilePkg.FrameBuffer.Interrupts

  The interrupt state of the frame buffer console.

  A write disables interrupts around its loop over the characters, and the
  routine for one character does so again around a glyph.  The jump to
  `newline:` passes the declaration of `intstate`, so that a new line restores
  whatever this local happens to hold: it is a parameter here, one value for
  each call of the routine.  The console of the debug library differs in one
  place only, it disables interrupts without testing that they are enabled.
-/

import MsmnilePkg.FrameBuffer.Writes

namespace FrameBuffer

open ByteMem

namespace Interrupts

/-! ## The interrupt state -/

/-- The copies of the console: FrameBufferSerialPortLib.c and DebugLib.c. -/
inductive Library where
  | serialPort
  | debug
  deriving DecidableEq, Repr

/-- `seen` is not in the source: it lists the interrupt states at the start of every
    character and after every change while it is written. -/
structure Cpu where
  console : Console
  enabled : Bool
  seen : List Bool

namespace Cpu

variable (s : Cpu)

def observe : Cpu := { s with seen := s.enabled :: s.seen }

/-- `intstate = ArmGetInterruptState(); if (intstate) ArmDisableInterrupts();`, in the debug
    library without the test. -/
def disable (lib : Library) : Cpu :=
  match lib with
  | .serialPort => if s.enabled then { s with enabled := false } else s
  | .debug => { s with enabled := false }

/-- `if (intstate) ArmEnableInterrupts();` -/
def restore (intstate : Bool) : Cpu := if intstate then { s with enabled := true } else s

def onConsole (f : Console → Console) : Cpu := { s with console := f s.console }

end Cpu

/-! ## Characters -/

/-- The code at `paint:`, up to a `return` or to `goto paint` (`true`), with the local
    `intstate`. -/
def paint (g : Geometry) (lib : Library) (c : Byte) (type : FbConMsgType) (scale : BitVec 32)
    (intstate : Bool) (s : Cpu) : Bool × Bool × Cpu :=
  if 127#8 < c then (false, intstate, s)
  else if c < 32#8 then
    if c = 0x0A#8 then
      let line := newline g scale s.console
      (line.1, intstate, (({ s with console := line.2 } : Cpu).restore intstate).observe)
    else if c = 0x0D#8 then (false, intstate, s.onConsole (·.setX 0#64))
    else (false, intstate, s)
  else if s.console.x = 0#64 ∧ c = 0x20#8 ∧ type ≠ .subtitleMsg ∧ type ≠ .titleMsg then
    (false, intstate, s)
  else
    let intstate := s.enabled
    let s := (s.disable lib).observe
    let cell := advance g scale (drawChar g c scale s.console)
    (cell.1, intstate, (({ s with console := cell.2 } : Cpu).restore intstate).observe)

/-- `FbConPutCharWithFactor`; `intstate` is what the local holds before it is assigned. -/
def fbConPutCharWithFactor (g : Geometry) (lib : Library) (c : Byte) (type : FbConMsgType)
    (scale : BitVec 32) : Nat → Bool → Cpu → Option Cpu
  | 0, intstate, s =>
      if (paint g lib c type scale intstate s).1 then none
      else some (paint g lib c type scale intstate s).2.2
  | gotos + 1, intstate, s =>
      if (paint g lib c type scale intstate s).1 then
        fbConPutCharWithFactor g lib c type scale gotos (paint g lib c type scale intstate s).2.1
          (paint g lib c type scale intstate s).2.2
      else some (paint g lib c type scale intstate s).2.2

/-- The loop over the characters; the calls of the routine find `unassigned 0`,
    `unassigned 1`, .. in the local. -/
def putChars (g : Geometry) (lib : Library) (gotos : Nat) :
    (Nat → Bool) → List Byte → Cpu → Option Cpu
  | _, [], s => some s
  | unassigned, c :: buffer, s =>
      (fbConPutCharWithFactor g lib c .commonMsg scaleFactor gotos (unassigned 0) s.observe).bind
        (putChars g lib gotos (fun k => unassigned (k + 1)) buffer)

/-! ## Writes -/

/-- The body of the four writes; a critical one is in yellow. -/
def write (g : Geometry) (lib : Library) (critical : Bool) (gotos : Nat)
    (unassigned : Nat → Bool) (buffer : List Byte) (s : Cpu) : Option Cpu :=
  let currentForeground := s.console.foreground
  let interruptState := s.enabled
  let s := s.disable lib
  let s := if critical then s.onConsole ({ · with foreground := fbBgra8888Yellow }) else s
  (putChars g lib gotos unassigned buffer s).map fun s =>
    let s := if critical then s.onConsole ({ · with foreground := currentForeground }) else s
    s.restore interruptState

def serialPortWrite (g : Geometry) := write g .serialPort false

def serialPortWriteCritical (g : Geometry) := write g .serialPort true

def frameBufferWrite (g : Geometry) := write g .debug false

def frameBufferWriteCritical (g : Geometry) := write g .debug true

/-- A write that returns, that has interrupts disabled from the first to the last character,
    and that leaves the interrupt state as it was. -/
def KeepsMasked (run : Cpu → Option Cpu) (s : Console) (enabled : Bool) : Prop :=
  ∃ t, run ⟨s, enabled, []⟩ = some t ∧ (∀ b ∈ t.seen, b = false) ∧ t.enabled = enabled

section Lemmas

variable {g : Geometry} {lib : Library} {c : Byte} {type : FbConMsgType} {scale : BitVec 32}
  {intstate : Bool} {s t : Cpu}

/-! ## The console of the masked routines -/

@[simp] theorem console_observe : s.observe.console = s.console := rfl

@[simp] theorem console_disable : (s.disable lib).console = s.console := by
  cases lib with
  | serialPort =>
      show (if s.enabled then _ else s).console = s.console
      split <;> rfl
  | debug => rfl

@[simp] theorem console_restore : (s.restore intstate).console = s.console := by
  cases intstate <;> rfl

@[simp] theorem seen_disable : (s.disable lib).seen = s.seen := by
  cases lib with
  | serialPort =>
      show (if s.enabled then _ else s).seen = s.seen
      split <;> rfl
  | debug => rfl

@[simp] theorem seen_restore : (s.restore intstate).seen = s.seen := by
  cases intstate <;> rfl

@[simp] theorem seen_observe : s.observe.seen = s.enabled :: s.seen := rfl

/-- The interrupts make no difference to the console. -/
theorem paint_console (g : Geometry) (lib : Library) (c : Byte) (type : FbConMsgType)
    (scale : BitVec 32) (intstate : Bool) (s : Cpu) :
    (paint g lib c type scale intstate s).1
      = (FrameBuffer.paint g c type scale s.console).1 ∧
    (paint g lib c type scale intstate s).2.2.console
      = (FrameBuffer.paint g c type scale s.console).2 := by
  rw [paint, FrameBuffer.paint]
  by_cases hascii : 127#8 < c
  · -- not a character of the font
    rw [if_pos hascii, if_pos hascii]
    exact ⟨rfl, rfl⟩
  rw [if_neg hascii, if_neg hascii]
  by_cases hcontrol : c < 32#8
  · rw [if_pos hcontrol, if_pos hcontrol]
    by_cases hnl : c = 0x0A#8
    · -- new line
      rw [if_pos hnl, if_pos hnl]
      simp
    rw [if_neg hnl, if_neg hnl]
    -- carriage return, or a control character that is ignored
    split <;> exact ⟨rfl, rfl⟩
  rw [if_neg hcontrol, if_neg hcontrol]
  by_cases hspace : s.console.x = 0#64 ∧ c = 0x20#8 ∧ type ≠ .subtitleMsg ∧ type ≠ .titleMsg
  · rw [if_pos hspace, if_pos hspace]
    exact ⟨rfl, rfl⟩
  -- a glyph
  rw [if_neg hspace, if_neg hspace]
  simp

theorem fbConPutCharWithFactor_console (lib : Library) (gotos : Nat) :
    ∀ (intstate : Bool) {s : Cpu},
      (fbConPutCharWithFactor g lib c type scale gotos intstate s).map (·.console)
        = FrameBuffer.fbConPutCharWithFactor g c type scale gotos s.console := by
  induction gotos with
  | zero =>
      intro intstate s
      obtain ⟨hback, hconsole⟩ := paint_console g lib c type scale intstate s
      rw [fbConPutCharWithFactor, FrameBuffer.fbConPutCharWithFactor, hback]
      split
      · rfl
      · rw [Option.map_some, hconsole]
  | succ gotos ih =>
      intro intstate s
      obtain ⟨hback, hconsole⟩ := paint_console g lib c type scale intstate s
      rw [fbConPutCharWithFactor, FrameBuffer.fbConPutCharWithFactor, hback]
      split
      · rw [ih, hconsole]
      · rw [Option.map_some, hconsole]

theorem putChars_console (lib : Library) (gotos : Nat) (buffer : List Byte) :
    ∀ (unassigned : Nat → Bool) {s : Cpu},
      (putChars g lib gotos unassigned buffer s).map (·.console)
        = FrameBuffer.putChars g gotos buffer s.console := by
  induction buffer with
  | nil => intro unassigned s; rfl
  | cons c buffer ih =>
      intro unassigned s
      rw [putChars, FrameBuffer.putChars, ← console_observe (s := s),
        ← fbConPutCharWithFactor_console lib gotos (unassigned 0)]
      cases fbConPutCharWithFactor g lib c .commonMsg scaleFactor gotos (unassigned 0)
        s.observe with
      | none => rfl
      | some t => exact ih _

/-! ## What painting preserves -/

/-- What holds after the first way through `paint:` and is preserved by the others holds when
    the routine returns. -/
theorem fbConPutCharWithFactor_of_paint {I : Cpu → Prop}
    (hpaint : ∀ i s, I s → I (paint g lib c type scale i s).2.2) (gotos : Nat) :
    ∀ {intstate : Bool} {s t : Cpu}, I (paint g lib c type scale intstate s).2.2 →
      fbConPutCharWithFactor g lib c type scale gotos intstate s = some t → I t := by
  induction gotos with
  | zero =>
      intro intstate s t h hput
      rw [fbConPutCharWithFactor] at hput
      split at hput
      · cases hput
      · exact Option.some.inj hput ▸ h
  | succ gotos ih =>
      intro intstate s t h hput
      rw [fbConPutCharWithFactor] at hput
      split at hput
      · -- `goto paint`
        exact ih (hpaint _ _ h) hput
      · exact Option.some.inj hput ▸ h

/-- The invariant rule for the loop over the characters. -/
theorem putChars_invariant {I : Cpu → Prop} (hobserve : ∀ s, I s → I s.observe) {gotos : Nat}
    (buffer : List Byte)
    (hpaint : ∀ c ∈ buffer, ∀ i s, I s → I (paint g lib c .commonMsg scaleFactor i s).2.2) :
    ∀ {unassigned : Nat → Bool} {s t : Cpu}, I s →
      putChars g lib gotos unassigned buffer s = some t → I t := by
  induction buffer with
  | nil =>
      intro unassigned s t h hput
      exact Option.some.inj hput ▸ h
  | cons c buffer ih =>
      intro unassigned s t h hput
      obtain ⟨u, hchar, hrest⟩ := Option.bind_eq_some_iff.mp hput
      have hfirst := hpaint c (List.mem_cons_self ..)
      apply ih (fun d hd => hpaint d (List.mem_cons_of_mem c hd)) _ hrest
      exact fbConPutCharWithFactor_of_paint hfirst gotos (hfirst _ _ (hobserve s h)) hchar

/-! ## Characters that are not a new line -/

/-- Interrupts are disabled, and have been while characters were written. -/
structure Quiet (s : Cpu) : Prop where
  masked : s.enabled = false
  seen : ∀ b ∈ s.seen, b = false

theorem Quiet.observe (h : Quiet s) : Quiet s.observe where
  masked := h.masked
  seen := by
    intro b hb
    rcases List.mem_cons.mp hb with rfl | hold
    · exact h.masked
    · exact h.seen b hold

theorem Quiet.console (h : Quiet s) (console : Console) : Quiet { s with console := console } :=
  ⟨h.masked, h.seen⟩

theorem Quiet.disable (h : Quiet s) : s.disable lib = s := by
  have hsame : ({ s with enabled := false } : Cpu) = s := by rw [← h.masked]
  cases lib with
  | serialPort =>
      show (if s.enabled then _ else s) = s
      rw [hsame, ite_self]
  | debug => exact hsame

/-- The local is assigned on every way to the place where it is read. -/
theorem Quiet.paint (h : Quiet s) (hc : c ≠ 0x0A#8) :
    Quiet (Interrupts.paint g lib c type scale intstate s).2.2 := by
  rw [Interrupts.paint]
  by_cases hascii : 127#8 < c
  · rw [if_pos hascii]
    exact h
  rw [if_neg hascii]
  by_cases hcontrol : c < 32#8
  · rw [if_pos hcontrol, if_neg hc]
    split
    · exact h.console _
    · exact h
  rw [if_neg hcontrol]
  by_cases hspace : s.console.x = 0#64 ∧ c = 0x20#8 ∧ type ≠ .subtitleMsg ∧ type ≠ .titleMsg
  · rw [if_pos hspace]
    exact h
  -- a glyph: the local holds the state read before it, and restores that
  rw [if_neg hspace, h.disable, h.masked]
  exact (h.observe.console _).observe

theorem Quiet.putChars {gotos : Nat} (buffer : List Byte) (hbuffer : 0x0A#8 ∉ buffer)
    {unassigned : Nat → Bool} (h : Quiet s)
    (hput : Interrupts.putChars g lib gotos unassigned buffer s = some t) : Quiet t := by
  apply putChars_invariant (fun _ hs => hs.observe) buffer _ h hput
  intro c hc i u hu
  apply hu.paint
  rintro rfl
  exact hbuffer hc

/-! ## New lines -/

/-- What was seen stays in the list. -/
theorem paint_seen {b : Bool} (hb : b ∈ s.seen) :
    b ∈ (paint g lib c type scale intstate s).2.2.seen := by
  rw [paint]
  split
  · exact hb
  · split
    · split
      · simp [hb]
      · split <;> exact hb
    · split
      · exact hb
      · simp [hb]

theorem putChars_seen {b : Bool} {gotos : Nat} (buffer : List Byte) {unassigned : Nat → Bool}
    (hb : b ∈ s.seen) (hput : putChars g lib gotos unassigned buffer s = some t) : b ∈ t.seen :=
  putChars_invariant (I := fun u => b ∈ u.seen) (fun _ hs => List.mem_cons_of_mem _ hs) buffer
    (fun _ _ _ _ hs => paint_seen hs) hb hput

/-- A new line enables interrupts when the unassigned local is not zero. -/
theorem paint_newline_enables : true ∈ (paint g lib 0x0A#8 type scale true s).2.2.seen := by
  rw [paint, if_neg (by decide), if_pos (by decide), if_pos rfl]
  exact List.mem_cons_self ..

theorem fbConPutCharWithFactor_newline_enables {gotos : Nat}
    (hput : fbConPutCharWithFactor g lib 0x0A#8 type scale gotos true s = some t) :
    true ∈ t.seen :=
  fbConPutCharWithFactor_of_paint (I := fun u => true ∈ u.seen) (fun _ _ => paint_seen) gotos
    paint_newline_enables hput

theorem putChars_newline_enables {gotos : Nat} (buffer : List Byte)
    (hbuffer : 0x0A#8 ∈ buffer) : ∀ {s t : Cpu},
      putChars g lib gotos (fun _ => true) buffer s = some t → true ∈ t.seen := by
  induction buffer with
  | nil => cases hbuffer
  | cons c buffer ih =>
      intro s t hput
      obtain ⟨u, hchar, hrest⟩ := Option.bind_eq_some_iff.mp hput
      rcases List.mem_cons.mp hbuffer with rfl | hlater
      · -- the new line is this character
        exact putChars_seen buffer (fbConPutCharWithFactor_newline_enables hchar) hrest
      · exact ih hlater hrest

end Lemmas

/-! ## Whole writes -/

section Writes

variable {g : Geometry} {lib : Library} {critical : Bool} {gotos : Nat}
  {unassigned : Nat → Bool} {buffer : List Byte} {s : Cpu}

/-- The state in which the loop over the characters begins. -/
def atLoop (lib : Library) (critical : Bool) (s : Cpu) : Cpu :=
  if critical then (s.disable lib).onConsole ({ · with foreground := fbBgra8888Yellow })
  else s.disable lib

theorem atLoop_masked : (atLoop lib critical s).enabled = false := by
  have hdisable : (s.disable lib).enabled = false := by
    cases lib with
    | serialPort =>
        show (if s.enabled then ({ s with enabled := false } : Cpu) else s).enabled = false
        split
        · rfl
        · exact Bool.eq_false_of_not_eq_true ‹_›
    | debug => rfl
  rw [atLoop]
  split <;> exact hdisable

theorem atLoop_seen : (atLoop lib critical s).seen = s.seen := by
  rw [atLoop]
  split
  · exact seen_disable
  · exact seen_disable

theorem atLoop_cursorOk (h : CursorOk g s.console) :
    CursorOk g (atLoop lib critical s).console := by
  rw [atLoop]
  split
  · show CursorOk g { (s.disable lib).console with foreground := fbBgra8888Yellow }
    rw [console_disable]
    exact h.foreground _
  · rw [console_disable]
    exact h

/-- A write is its loop, after which interrupts are as the loop left them, or enabled. -/
theorem write_eq_some {t : Cpu} : write g lib critical gotos unassigned buffer s = some t ↔
    ∃ u, putChars g lib gotos unassigned buffer (atLoop lib critical s) = some u ∧
      (if critical then u.onConsole ({ · with foreground := s.console.foreground })
        else u).restore s.enabled = t :=
  Option.map_eq_some_iff

/-- The loop returns from every cursor on the screen. -/
theorem putChars_returns (hg : GeometryOk g) (hfit : FitsWord g) (h : CursorOk g s.console)
    (lib : Library) (unassigned : Nat → Bool) (buffer : List Byte) :
    ∃ t, putChars g lib 1 unassigned buffer s = some t := by
  obtain ⟨s', hrun, -⟩ := putChars_ok hg hfit buffer h
  rw [← putChars_console lib 1 buffer unassigned] at hrun
  obtain ⟨t, ht, -⟩ := Option.map_eq_some_iff.mp hrun
  exact ⟨t, ht⟩

/-- What the end of a write does to the interrupt state. -/
theorem finish_enabled {u : Cpu} {enabled : Bool} (hu : u.enabled = false) (color : BitVec 64) :
    ((if critical then u.onConsole ({ · with foreground := color }) else u).restore
      enabled).enabled = enabled := by
  cases critical <;> cases enabled <;> first | rfl | exact hu

theorem finish_seen {u : Cpu} {enabled : Bool} (color : BitVec 64) :
    ((if critical then u.onConsole ({ · with foreground := color }) else u).restore
      enabled).seen = u.seen := by
  cases critical <;> exact seen_restore

/-- Characters that are not new lines are written with interrupts disabled. -/
theorem keepsMasked_of_not_mem {s : Console} (hg : GeometryOk g) (hfit : FitsWord g)
    (h : CursorOk g s) (hbuffer : 0x0A#8 ∉ buffer) (enabled : Bool) :
    KeepsMasked (write g lib critical 1 unassigned buffer) s enabled := by
  have hloop : CursorOk g (atLoop lib critical ⟨s, enabled, []⟩).console := atLoop_cursorOk h
  obtain ⟨u, hput⟩ := putChars_returns hg hfit hloop lib unassigned buffer
  have hquiet : Quiet (atLoop lib critical ⟨s, enabled, []⟩) := by
    refine ⟨atLoop_masked, ?_⟩
    rw [atLoop_seen]
    intro b hb
    cases hb
  have hu := Quiet.putChars buffer hbuffer hquiet hput
  refine ⟨_, write_eq_some.mpr ⟨u, hput, rfl⟩, ?_, finish_enabled hu.masked _⟩
  rw [finish_seen]
  exact hu.seen

/-- A new line is seen to enable interrupts. -/
theorem not_keepsMasked_of_mem {s : Console} (hbuffer : 0x0A#8 ∈ buffer) (enabled : Bool) :
    ¬ KeepsMasked (write g lib critical gotos (fun _ => true) buffer) s enabled := by
  -- with a local that is not zero in every call of the routine
  rintro ⟨t, hrun, hseen, -⟩
  obtain ⟨u, hput, rfl⟩ := write_eq_some.mp hrun
  have htrue := putChars_newline_enables buffer hbuffer hput
  rw [finish_seen] at hseen
  exact Bool.true_eq_false_eq_False (hseen true htrue)

end Writes

/-- A write keeps interrupts disabled from its first to its last character, and returns with
    the interrupt state it was entered with, whatever the unassigned local holds, exactly
    when it writes no new line. -/
theorem write_keepsMasked_iff {g : Geometry} {s : Console} (hg : GeometryOk g)
    (hfit : FitsWord g) (h : CursorOk g s) (lib : Library) (critical : Bool)
    (buffer : List Byte) (enabled : Bool) :
    (∀ unassigned, KeepsMasked (write g lib critical 1 unassigned buffer) s enabled) ↔
      0x0A#8 ∉ buffer := by
  constructor
  · intro hall hmem
    exact not_keepsMasked_of_mem hmem enabled (hall fun _ => true)
  · intro hbuffer unassigned
    exact keepsMasked_of_not_mem hg hfit h hbuffer enabled

theorem write_keepsMasked_phone :
    (∀ unassigned, KeepsMasked (serialPortWrite phoneScreen 1 unassigned [0x4F#8, 0x4B#8])
      (opened phoneScreen) true) ↔ 0x0A#8 ∉ [0x4F#8, 0x4B#8] :=
  write_keepsMasked_iff phoneScreen_fits.1 phoneScreen_fits.2
    ((opened_initialized phoneScreen).cursorOk phoneScreen_fits.1 phoneScreen_fits.2)
    .serialPort false [0x4F#8, 0x4B#8] true

/-- A single new line enables interrupts before the write is over. -/
theorem newline_unmasks : ¬ ∀ (buffer : List Byte) (enabled : Bool) (unassigned : Nat → Bool),
    KeepsMasked (serialPortWrite phoneScreen 1 unassigned buffer) (opened phoneScreen) enabled := by
  intro hall
  have hline := hall [0x0A#8] true fun _ => true
  exact not_keepsMasked_of_mem (List.mem_singleton_self 0x0A#8) true hline

end Interrupts

end FrameBuffer
