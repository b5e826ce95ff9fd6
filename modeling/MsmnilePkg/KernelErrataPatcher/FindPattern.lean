/-
  MsmnilePkg.KernelErrataPatcher.FindPattern

  What FindPattern finds.

  The pattern string is that of a list of tokens.  Over such a string the
  search is a `StreamMatch.stream`: it does not go back, and so it misses an
  occurrence that begins inside an attempt that fails.
-/

import MsmnilePkg.Lib.StreamMatch
import MsmnilePkg.KernelErrataPatcher.Utilities

namespace KernelErrataPatcher

open ByteMem StreamMatch

/-! ## Patterns -/

inductive HexDigit where
  | digit (n : Fin 10)
  | upper (n : Fin 6)
  | lower (n : Fin 6)
  deriving DecidableEq, Repr

def HexDigit.char : HexDigit → Byte
  | .digit n => BitVec.ofNat 8 (0x30 + n)
  | .upper n => BitVec.ofNat 8 (0x41 + n)
  | .lower n => BitVec.ofNat 8 (0x61 + n)

def HexDigit.value : HexDigit → Nat
  | .digit n => n
  | .upper n => 10 + n
  | .lower n => 10 + n

/-- A token is a lone `?` or two hex digits. -/
inductive Token where
  | any
  | byte (hi lo : HexDigit)
  deriving DecidableEq, Repr

namespace Token

def text : Token → List Byte
  | any => [0x3F#8]
  | byte hi lo => [hi.char, lo.char]

def accepts : Token → Byte → Bool
  | any, _ => true
  | byte hi lo, b => decide (b.toNat = 16 * hi.value + lo.value)

end Token

/-- The string of a pattern: its tokens with single spaces between them. -/
def patternText : List Token → List Byte
  | [] => []
  | [t] => t.text
  | t :: u :: ts => t.text ++ 0x20#8 :: patternText (u :: ts)

/-- Token `j` accepts the byte at offset `p` from `base`. -/
def hits (tokens : List Token) (m : Mem) (base : Addr) (j p : Nat) : Bool :=
  match tokens[j]? with
  | some t => t.accepts (m (base + BitVec.ofNat 64 p))
  | none => false

/-- The last token is a pair of hex digits. -/
def EndsInByte (tokens : List Token) : Prop := ∃ hi lo, tokens.getLast? = some (.byte hi lo)

/-! ## Characters -/

theorem HexDigit.char_spec (d : HexDigit) :
    d.char ≠ 0#8 ∧ d.char ≠ 0x3F#8 ∧ (getBits d.char).toNat = d.value ∧ d.value < 16 := by
  cases d with
  | digit n => revert n; decide
  | upper n => revert n; decide
  | lower n => revert n; decide

theorem getByte_char (hi lo : HexDigit) :
    (getByte hi.char lo.char).toNat = 16 * hi.value + lo.value := by
  obtain ⟨-, -, hhi, hhilt⟩ := hi.char_spec
  obtain ⟨-, -, hlo, hlolt⟩ := lo.char_spec
  have hshift : (getBits hi.char <<< 4).toNat = 2 ^ 4 * hi.value := by
    rw [BitVec.toNat_shiftLeft, hhi, Nat.shiftLeft_eq, Nat.mod_eq_of_lt (by omega), Nat.mul_comm]
  rw [getByte, BitVec.toNat_or, hshift, hlo, ← Nat.two_pow_add_eq_or_of_lt (by omega)]

/-- Behind the first `i` characters stands the rest of the string, and its terminator. -/
theorem charAt_of_drop {text rest : List Byte} {i : Nat} (h : text.drop i = rest)
    (hne : rest ≠ []) (d : Nat) : charAt text (i + d) = (rest ++ [0#8])[d]? := by
  have hi : i ≤ text.length := by
    by_contra hgt
    rw [List.drop_eq_nil_of_le (by omega)] at h
    exact hne h.symm
  rw [charAt, ← h, ← List.drop_append_of_le_length hi, List.getElem?_drop]

theorem Token.text_eq_cons (t : Token) : ∃ c cs, t.text = c :: cs ∧ c ≠ 0#8 := by
  cases t with
  | any => exact ⟨_, _, rfl, by decide⟩
  | byte hi lo => exact ⟨_, _, rfl, hi.char_spec.1⟩

theorem patternText_eq_cons (t : Token) (ts : List Token) :
    ∃ c cs, patternText (t :: ts) = c :: cs ∧ c ≠ 0#8 := by
  obtain ⟨c, cs, htext, hc⟩ := t.text_eq_cons
  cases ts with
  | nil => exact ⟨c, cs, htext, hc⟩
  | cons u ts =>
      refine ⟨c, cs ++ 0x20#8 :: patternText (u :: ts), ?_, hc⟩
      rw [patternText, htext]
      rfl

/-- Where the text of a token and the space behind it end, the next token begins. -/
theorem drop_token {text : List Byte} {i : Nat} {t u : Token} {ts : List Token}
    (h : text.drop i = patternText (t :: u :: ts)) :
    text.drop (i + (t.text.length + 1)) = patternText (u :: ts) := by
  rw [← List.drop_drop, h, patternText, List.append_cons]
  exact List.drop_left' (by rw [List.length_append]; rfl)

/-! ## One turn -/

section Turn

variable {m : Mem} {limit current firstMatch : Addr} {text : List Byte} {i fuel : Nat} {t : Token}

/-- What a turn does behind the last token. -/
def atEnd (t : Token) (firstMatch : Addr) : Option Addr :=
  match t with
  | .any => none
  | .byte _ _ => some firstMatch

/-- The test of a token is that of its first two characters. -/
theorem acceptsAt_token (m : Mem) (current : Addr) {ts : List Token}
    (h : text.drop i = patternText (t :: ts)) :
    ∃ c cs, t.text = c :: cs ∧ charAt text i = some c ∧ c ≠ 0#8 ∧
      (c = 0x3F#8 ↔ t.text.length = 1) ∧
      acceptsAt m text c i current = some (t.accepts (m current)) := by
  obtain ⟨c', cs', htext', hc'⟩ := patternText_eq_cons t ts
  have hat := charAt_of_drop h (by rw [htext']; exact List.cons_ne_nil _ _)
  -- A `?` is one character, a byte two digits.
  cases t with
  | any =>
      refine ⟨0x3F#8, [], rfl, ?_, by decide, by simp [Token.text], rfl⟩
      have hzero := hat 0
      cases ts with
      | nil => exact hzero
      | cons u ts => exact hzero
  | byte hi lo =>
      obtain ⟨hnul, hany, -, -⟩ := hi.char_spec
      have hfirst : charAt text i = some hi.char := by
        have hzero := hat 0
        cases ts with
        | nil => exact hzero
        | cons u ts => exact hzero
      have hsecond : charAt text (i + 1) = some lo.char := by
        have hone := hat 1
        cases ts with
        | nil => exact hone
        | cons u ts => exact hone
      refine ⟨hi.char, [lo.char], rfl, hfirst, hnul, ?_, ?_⟩
      · simp [Token.text, hany]
      · rw [acceptsAt, if_neg hany, hsecond, Option.map_some, Token.accepts, ← getByte_char]
        congr 1
        rw [decide_eq_decide, BitVec.toNat_inj]

/-- A token that does not fit sends the search back to the first one. -/
theorem findPatternLoop_miss {ts : List Token} (h : text.drop i = patternText (t :: ts))
    (hlt : current < limit) (hmiss : t.accepts (m current) = false) :
    findPatternLoop m limit text (fuel + 1) current firstMatch i
      = findPatternLoop m limit text fuel (current + 1#64) 0#64 0 := by
  obtain ⟨c, cs, -, hat, hnul, -, haccepts⟩ := acceptsAt_token m current h
  rw [findPatternLoop, if_pos hlt, hat, Option.bind_some, if_neg hnul, haccepts, Option.bind_some,
    hmiss, if_neg Bool.false_ne_true]

/-- A token that fits hands on to the next one. -/
theorem findPatternLoop_hit {u : Token} {ts : List Token}
    (h : text.drop i = patternText (t :: u :: ts)) (hlt : current < limit)
    (hhit : t.accepts (m current) = true) :
    findPatternLoop m limit text (fuel + 1) current firstMatch i
      = findPatternLoop m limit text fuel (current + 1#64)
          (if firstMatch = 0#64 then current else firstMatch) (i + (t.text.length + 1)) := by
  obtain ⟨c, cs, htext, hat, hnul, hany, haccepts⟩ :=
    acceptsAt_token m current h
  obtain ⟨c', cs', htext', hc'⟩ := patternText_eq_cons u ts
  -- The blank behind a token is not the end of the pattern, since u follows.
  have hbehind : ∃ d, charAt text (i + 2) = some d ∧ d ≠ 0#8 := by
    rw [charAt_of_drop h (by rw [patternText, htext]; exact List.cons_ne_nil _ _)]
    cases t with
    | any =>
        refine ⟨c', ?_, hc'⟩
        rw [patternText, htext']
        rfl
    | byte hi lo => exact ⟨0x20#8, rfl, by decide⟩
  obtain ⟨d, hd, hdnul⟩ := hbehind
  -- The cursor goes over the token and the blank.
  have hlen : (if c = 0x3F#8 then i + 2 else i + 3) = i + (t.text.length + 1) := by
    cases t with
    | any => rw [if_pos (hany.mpr rfl)]; rfl
    | byte hi lo => rw [if_neg (fun heq => absurd (hany.mp heq) (by simp [Token.text]))]; rfl
  rw [findPatternLoop, if_pos hlt, hat, Option.bind_some, if_neg hnul, haccepts, Option.bind_some,
    if_pos hhit, hd, Option.bind_some, if_neg hdnul, hlen]

/-- Behind the last token the search returns; it reads behind the string for a `?`. -/
theorem findPatternLoop_last (h : text.drop i = patternText [t]) (hlt : current < limit)
    (hhit : t.accepts (m current) = true) :
    findPatternLoop m limit text (fuel + 1) current firstMatch i
      = atEnd t (if firstMatch = 0#64 then current else firstMatch) := by
  obtain ⟨c, cs, htext, hat, hnul, -, haccepts⟩ := acceptsAt_token m current h
  have hbehind := charAt_of_drop h (by rw [patternText, htext]; exact List.cons_ne_nil _ _) 2
  rw [findPatternLoop, if_pos hlt, hat, Option.bind_some, if_neg hnul, haccepts, Option.bind_some,
    if_pos hhit, hbehind]
  cases t with
  | any => rfl
  | byte hi lo => rfl

end Turn

/-! ## The search -/

/-- `firstMatch` when `j` tokens have fit since the attempt at offset `s`.  An attempt at
    address 0 is taken for none by its second turn. -/
def firstMatchOf (base : Addr) (s j : Nat) : Addr :=
  if j = 0 then 0#64
  else if base + BitVec.ofNat 64 s ≠ 0#64 then base + BitVec.ofNat 64 s
  else if j = 1 then 0#64 else 1#64

/-- What FindPattern returns when its search ends as `found`. -/
def reported (tokens : List Token) (base : Addr) (found : Option Nat) : Option Addr :=
  match found with
  | none => some 0#64
  | some s =>
      match tokens.getLast? with
      | some t => atEnd t (firstMatchOf base s tokens.length)
      | none => some 0#64

section Search

variable {tokens : List Token} {m : Mem} {base : Addr}

theorem firstMatchOf_succ (base : Addr) (s j : Nat) :
    (if firstMatchOf base s j = 0#64 then base + BitVec.ofNat 64 (s + j)
      else firstMatchOf base s j) = firstMatchOf base s (j + 1) := by
  rcases j with _ | _ | j
  · by_cases hs : base + BitVec.ofNat 64 s = 0#64 <;> simp [firstMatchOf, hs]
  · by_cases hs : base + BitVec.ofNat 64 s = 0#64
    · have hone : base + BitVec.ofNat 64 (s + 1) = 1#64 := by
        rw [BitVec.ofNat_add, ← BitVec.add_assoc, hs]
        rfl
      simp [firstMatchOf, hs, hone]
    · simp [firstMatchOf, hs]
  · by_cases hs : base + BitVec.ofNat 64 s = 0#64 <;> simp [firstMatchOf, hs]

theorem hits_getElem {j p : Nat} {t : Token} {ts : List Token} (h : tokens.drop j = t :: ts) :
    hits tokens m base j p = t.accepts (m (base + BitVec.ofNat 64 p)) := by
  have hget : tokens[j]? = some t := by
    have hhead := congrArg (fun l => l[0]?) h
    simpa using hhead
  rw [hits, hget]

/-- While the rest of the string is that of the rest of the tokens, the loop is the stream. -/
theorem findPatternLoop_eq (m : Mem) (base limit : Addr) (hk : 0 < tokens.length) :
    ∀ (n s j i : Nat), j < tokens.length →
    (patternText tokens).drop i = patternText (tokens.drop j) →
    base.toNat + (s + j) + n = limit.toNat →
      findPatternLoop m limit (patternText tokens) (n + 1) (base + BitVec.ofNat 64 (s + j))
        (firstMatchOf base s j) i
      = reported tokens base (stream (hits tokens m base) tokens.length n s j) := by
  -- By induction on the bytes that are left; `s` is where the attempt began, `j` its token.
  intro n
  induction n with
  | zero =>
      intro s j i _ _ hlimit
      have hge : ¬ base + BitVec.ofNat 64 (s + j) < limit := by
        have hlt := limit.isLt
        bv_omega
      rw [findPatternLoop, if_neg hge, stream, reported]
  | succ n ih =>
      intro s j i hj hdrop hlimit
      have hlt : base + BitVec.ofNat 64 (s + j) < limit := by
        have hlt := limit.isLt
        bv_omega
      have hnext : base + BitVec.ofNat 64 (s + j) + 1#64 = base + BitVec.ofNat 64 (s + j + 1) := by
        rw [BitVec.add_assoc, ← BitVec.ofNat_add]
      obtain ⟨t, ts, hts⟩ : ∃ t ts, tokens.drop j = t :: ts :=
        ⟨_, _, List.drop_eq_getElem_cons hj⟩
      have hhits : hits tokens m base j (s + j) = t.accepts (m (base + BitVec.ofNat 64 (s + j))) :=
        hits_getElem hts
      have hts' : tokens.drop (j + 1) = ts := by
        rw [← List.drop_drop, hts]
        rfl
      have hlen : tokens.length - (j + 1) = ts.length := by rw [← hts', List.length_drop]
      rw [hts] at hdrop
      rw [stream, hhits]
      cases haccepts : t.accepts (m (base + BitVec.ofNat 64 (s + j))) with
      | false =>
          -- The attempt fails, and the next one begins behind the byte that was read.
          rw [findPatternLoop_miss hdrop hlt haccepts, hnext, if_neg Bool.false_ne_true]
          exact ih (s + j + 1) 0 0 hk rfl (by omega)
      | true =>
          rw [if_pos rfl]
          cases ts with
          | nil =>
              -- The last token: the occurrence is complete.
              have hlast : j + 1 = tokens.length := by
                rw [List.length_nil] at hlen
                omega
              have hgetLast : tokens.getLast? = some t := by
                rw [← List.take_append_drop j tokens, hts, List.getLast?_concat]
              rw [findPatternLoop_last hdrop hlt haccepts, if_pos hlast, reported, hgetLast,
                firstMatchOf_succ, hlast]
          | cons u ts =>
              have hmore : j + 1 ≠ tokens.length := by
                rw [List.length_cons] at hlen
                omega
              rw [findPatternLoop_hit hdrop hlt haccepts, if_neg hmore, firstMatchOf_succ, hnext]
              exact ih s (j + 1) _ (by omega) (by rw [hts', drop_token hdrop]) (by omega)

/-- FindPattern searches the bytes up to its limit, unless the limit wraps to 0 or below the
    base: then it does not search at all. -/
theorem findPattern_eq (hk : 0 < tokens.length) (size : BitVec 64) :
    findPattern m base size (patternText tokens)
      = if base.toNat + size.toNat < 2 ^ 64 then
          reported tokens base
            (stream (hits tokens m base) tokens.length size.toNat 0 0)
        else some 0#64 := by
  rw [findPattern]
  by_cases hwrap : base.toNat + size.toNat < 2 ^ 64
  · have hloop := findPatternLoop_eq m base (base + size) hk size.toNat 0 0 0 hk rfl
      (by bv_omega)
    rw [if_pos hwrap, ← hloop]
    congr 1
    exact (BitVec.add_zero base).symm
  · have hge : ¬ base < base + size := by
      bv_omega
    rw [if_neg hwrap, findPatternLoop, if_neg hge]

end Search

/-! ## The lowest occurrence -/

/-- The pattern occurs `s` bytes behind the base, in the `size` bytes searched. -/
def PatternAt (tokens : List Token) (m : Mem) (base : Addr) (size : BitVec 64) (s : Nat) : Prop :=
  FoundAt (hits tokens m base) tokens.length size.toNat s

def LowestAt (tokens : List Token) (m : Mem) (base : Addr) (size : BitVec 64) (s : Nat) : Prop :=
  Lowest (hits tokens m base) tokens.length size.toNat s

/-- The search begins with the first token `s` bytes behind the base. -/
def TriedAt (tokens : List Token) (m : Mem) (base : Addr) (s : Nat) : Prop :=
  Tried (hits tokens m base) tokens.length s

/-- FindPattern returns the lowest address of the pattern, and 0 when there is none. -/
def FindsLowest (tokens : List Token) (m : Mem) (base : Addr) (size : BitVec 64) : Prop :=
  ∃ r, findPattern m base size (patternText tokens) = some r ∧
    (∀ s, LowestAt tokens m base size s → r = base + BitVec.ofNat 64 s) ∧
    (r = 0#64 ↔ ∀ s, ¬ PatternAt tokens m base size s)

section Lowest

variable {tokens : List Token} {m : Mem} {base : Addr} {size : BitVec 64}

theorem findPattern_nil (m : Mem) (base : Addr) (size : BitVec 64) :
    findPattern m base size (patternText []) = some 0#64 := by
  rw [findPattern, findPatternLoop]
  by_cases hlt : base < base + size
  · rw [if_pos hlt]
    rfl
  · rw [if_neg hlt]

theorem firstMatchOf_found {s j : Nat} (hj : 0 < j) (hs : base + BitVec.ofNat 64 s ≠ 0#64) :
    firstMatchOf base s j = base + BitVec.ofNat 64 s := by
  rw [firstMatchOf, if_neg (by omega), if_pos hs]

/-- An occurrence that is tried is returned, if its last token is not a `?`. -/
theorem findPattern_tried (hwrap : base.toNat + size.toNat < 2 ^ 64) {s : Nat}
    (hend : EndsInByte tokens) (htried : TriedAt tokens m base s)
    (hat : PatternAt tokens m base size s) (hs : base + BitVec.ofNat 64 s ≠ 0#64) :
    findPattern m base size (patternText tokens) = some (base + BitVec.ofNat 64 s) := by
  obtain ⟨hi, lo, hlast⟩ := hend
  have hk : 0 < tokens.length := by
    rcases List.eq_nil_or_concat tokens with rfl | ⟨ts, t, rfl⟩
    · cases hlast
    · rw [List.length_concat]
      exact Nat.succ_pos _
  rw [findPattern_eq hk, if_pos hwrap, (stream_eq_some_iff hk).mpr ⟨htried, hat⟩, reported, hlast]
  exact congrArg some (firstMatchOf_found hk hs)

/-- What is returned, and is not 0, is an occurrence that is tried. -/
theorem tried_of_findPattern {r : Addr} (hbase : base ≠ 0#64)
    (h : findPattern m base size (patternText tokens) = some r) (hr : r ≠ 0#64) :
    base.toNat + size.toNat < 2 ^ 64 ∧ EndsInByte tokens ∧
      ∃ s, TriedAt tokens m base s ∧ PatternAt tokens m base size s ∧
        r = base + BitVec.ofNat 64 s := by
  rcases Nat.eq_zero_or_pos tokens.length with hnil | hk
  · rw [List.length_eq_zero_iff.mp hnil, findPattern_nil] at h
    exact absurd (Option.some.inj h).symm hr
  rw [findPattern_eq hk] at h
  by_cases hwrap : base.toNat + size.toNat < 2 ^ 64
  · rw [if_pos hwrap] at h
    refine ⟨hwrap, ?_⟩
    cases hstream : stream (hits tokens m base) tokens.length size.toNat 0 0 with
    | none =>
        rw [hstream] at h
        exact absurd (Option.some.inj h).symm hr
    | some s =>
        obtain ⟨htried, hat⟩ := (stream_eq_some_iff hk).mp hstream
        have hin := hat.1
        have hs : base + BitVec.ofNat 64 s ≠ 0#64 := by bv_omega
        obtain ⟨t, hlast⟩ : ∃ t, tokens.getLast? = some t :=
          Option.isSome_iff_exists.mp (by simpa using List.ne_nil_of_length_pos hk)
        rw [hstream, reported, hlast] at h
        -- A pattern that ends in `?` is read beyond its end.
        cases t with
        | any => cases h
        | byte hi lo =>
            refine ⟨⟨hi, lo, hlast⟩, s, htried, hat, ?_⟩
            rw [← firstMatchOf_found hk hs]
            exact (Option.some.inj h).symm
  · rw [if_neg hwrap] at h
    exact absurd (Option.some.inj h).symm hr

/-- Where the pattern does not occur FindPattern returns 0. -/
theorem findPattern_none (h : ∀ s, ¬ PatternAt tokens m base size s) :
    findPattern m base size (patternText tokens) = some 0#64 := by
  have hk : 0 < tokens.length := by
    rcases Nat.eq_zero_or_pos tokens.length with hnil | hk
    · refine absurd ⟨?_, fun j hj => ?_⟩ (h 0)
      · omega
      · omega
    · exact hk
  rw [findPattern_eq hk, stream_none hk h]
  by_cases hwrap : base.toNat + size.toNat < 2 ^ 64
  · rw [if_pos hwrap, reported]
  · rw [if_neg hwrap]

end Lowest

/-- FindPattern finds the lowest occurrence, or that there is none, exactly when the lowest
    occurrence, where there is one, is tried, the range ends below 2 ^ 64, and the last token is
    not a `?`. -/
theorem findPattern_lowest_iff {tokens : List Token} {m : Mem} {base : Addr} {size : BitVec 64}
    (hbase : base ≠ 0#64) :
    FindsLowest tokens m base size ↔
      ∀ s, LowestAt tokens m base size s →
        base.toNat + size.toNat < 2 ^ 64 ∧ EndsInByte tokens ∧ TriedAt tokens m base s := by
  constructor
  · rintro ⟨r, hfind, hlowest, hzero⟩ s hs
    have hr : r ≠ 0#64 := fun heq => hzero.mp heq s hs.1
    obtain ⟨hwrap, hend, t, htried, hat, hrt⟩ := tried_of_findPattern hbase hfind hr
    have hrs := hlowest s hs
    have hin := hat.1
    have hin' := hs.1.1
    -- The offset reported is the lowest one, so that one was tried.
    have hst : s = t := by bv_omega
    exact ⟨hwrap, hend, hst ▸ htried⟩
  · intro h
    -- Without a match the search has to report 0, which it does.
    by_cases hsome : ∃ s, PatternAt tokens m base size s
    · obtain ⟨s, hs⟩ := hsome
      obtain ⟨t, ht⟩ := exists_lowest hs
      obtain ⟨hwrap, hend, htried⟩ := h t ht
      have hin := ht.1.1
      have hat : base + BitVec.ofNat 64 t ≠ 0#64 := by bv_omega
      refine ⟨_, findPattern_tried hwrap hend htried ht.1 hat, fun u hu => ?_, fun heq => ?_,
        fun hnone => ?_⟩
      · rw [ht.unique hu]
      · exact absurd heq hat
      · exact absurd hs (hnone s)
    · have hnone : ∀ s, ¬ PatternAt tokens m base size s := fun s hs => hsome ⟨s, hs⟩
      exact ⟨0#64, findPattern_none hnone, fun s hs => absurd hs.1 (hnone s), fun _ => hnone,
        fun _ => rfl⟩

/-! ## Two searches -/

/-- `AA AB` -/
def doubledPattern : List Token :=
  [.byte (.upper 0) (.upper 0), .byte (.upper 0) (.upper 1)]

/-- The bytes AA, AA, AB from 0x1000 on. -/
def doubledMem : Mem := fun a => if a = 0x1002#64 then 0xAB#8 else 0xAA#8

theorem findPattern_lowest_doubled :
    FindsLowest doubledPattern doubledMem 0x1001#64 2#64 ↔
      ∀ s, LowestAt doubledPattern doubledMem 0x1001#64 2#64 s →
        (0x1001#64 : Addr).toNat + (2#64).toNat < 2 ^ 64 ∧ EndsInByte doubledPattern ∧
          TriedAt doubledPattern doubledMem 0x1001#64 s :=
  findPattern_lowest_iff (by decide)

/-- The second AA ends the attempt that the first one began. -/
theorem doubled_start_is_missed : ¬ FindsLowest doubledPattern doubledMem 0x1000#64 3#64 := by
  rintro ⟨r, hfind, -, hzero⟩
  have hmissed : findPattern doubledMem 0x1000#64 3#64 (patternText doubledPattern)
      = some 0#64 := by decide +kernel
  have hat : PatternAt doubledPattern doubledMem 0x1000#64 3#64 1 := by
    refine ⟨by decide, fun j hj => ?_⟩
    revert j
    decide
  rw [hmissed, Option.some.injEq] at hfind
  exact hzero.mp hfind.symm 1 hat

end KernelErrataPatcher
