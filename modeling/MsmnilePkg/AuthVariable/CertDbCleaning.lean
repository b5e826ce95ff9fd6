/-
  MsmnilePkg.AuthVariable.CertDbCleaning

  `CleanCertsFromDb`: certificates without their variable are taken out of "certdb".

  A turn of the outer loop takes out one of them, so it ends where no update of "certdb"
  fails; where they do fail it does not end.
-/

import MsmnilePkg.AuthVariable.CertMap

namespace AuthVariable

open Efi ByteMem LittleEndian RecordArea

/-! ## The variable of a node -/

theorem chars_of_holds {data : Buffer} : ∀ {n : Name} {offset : Nat},
    Holds data offset (Name.bytes n) →
    (List.range n.length).map (fun i => BitVec.ofNat 16 (value data (offset + 2 * i) 2)) = n := by
  intro n
  induction n with
  | nil => exact fun _ => rfl
  | cons c n ih =>
      intro offset h
      rw [Name.bytes, List.flatMap_cons, holds_append, field_length, ← Name.bytes] at h
      have hfirst : BitVec.ofNat 16 (value data (offset + 2 * 0) 2) = c := by
        rw [Nat.mul_zero, Nat.add_zero, h.1.value c.isLt]
        exact BitVec.ofNat_toNat ..
      have hrest := ih h.2
      rw [List.length_cons, List.range_succ_eq_map, List.map_cons, List.map_map, hfirst]
      refine congrArg (c :: ·) (Eq.trans (List.map_congr_left fun i _ => ?_) hrest)
      rw [Function.comp_apply, Nat.mul_succ, Nat.add_comm (2 * i), ← Nat.add_assoc]

theorem keyAt_eq {data : Buffer} {offset : Nat} {n : Node} (hsmall : n.size < 2 ^ 32)
    (hterminated : 0#16 ∉ n.variableName) (h : Holds data offset n.bytes) :
    keyAt data offset = ⟨n.variableName, n.vendorGuid, hterminated⟩ := by
  have hnode := nodeAt_of_holds hsmall h
  have hname : Holds data (offset + 28) (Name.bytes n.variableName) := by
    rw [Holds, Name.bytes_length]
    exact hnode.name
  have hguid : Holds data offset (field n.vendorGuid.toNat 16) := by
    rw [Holds, field_length]
    exact hnode.guid
  have hall : ∀ c ∈ n.variableName, decide (c ≠ 0#16) = true := by
    intro c hc
    refine decide_eq_true fun hzero => hterminated ?_
    rw [← hzero]
    exact hc
  have hchars : ((List.range (value data (offset + 20) 4)).map fun i =>
      BitVec.ofNat 16 (value data (offset + 28 + 2 * i) 2)).takeWhile (· ≠ 0#16)
      = n.variableName := by
    rw [hnode.nameSize, chars_of_holds hname, List.takeWhile_eq_self_iff]
    exact hall
  have hvalue : BitVec.ofNat 128 (value data offset 16) = n.vendorGuid := by
    rw [hguid.value n.vendorGuid.isLt]
    exact BitVec.ofNat_toNat ..
  rw [Key.mk.injEq]
  exact ⟨hchars, hvalue⟩

/-! ## Looking for a certificate without its variable -/

/-- The variable is there, and is time-based authenticated. -/
def Authenticated (c : Contents) (k : Key) : Prop := ∃ x, c k = some x ∧ x.isTime = true

/-- What the inner loop finds. -/
inductive Orphan (p : Platform) (c : Contents) (nodes : List Node) :
    Except Status (Option (Key × Attributes)) → Prop where
  | error {size : Nat} : p.allocateZeroPool size = false → Orphan p c nodes (.error .outOfResources)
  | none : (∀ k, certOf nodes k ≠ none → Authenticated c k) → Orphan p c nodes (.ok none)
  | some {k : Key} {attributes : Attributes} : certOf nodes k ≠ none → ¬Authenticated c k →
      Orphan p c nodes (.ok (some (k, attributes)))

section Clean

variable {V : VariableDriver} {p : Platform} {s s' : State V} {k : Key} {nodes : List Node}
  {n : Node} {data : Buffer} {dataSize : Nat}

theorem certOf_cons_ne (h : certOf nodes k ≠ none) : certOf (n :: nodes) k ≠ none := by
  intro hnone
  refine h (certOf_eq_none.mpr fun m hm => ?_)
  exact certOf_eq_none.mp hnone m (List.mem_cons_of_mem n hm)

theorem certOf_cons_cases (h : certOf (n :: nodes) k ≠ none) :
    n.IsFor k.variableName k.vendorGuid = true ∨ certOf nodes k ≠ none := by
  by_contra hnot
  rw [not_or, Bool.not_eq_true, not_not] at hnot
  refine h (certOf_eq_none.mpr fun m hm => ?_)
  rcases List.mem_cons.mp hm with rfl | hm
  · exact hnot.1
  · exact certOf_eq_none.mp hnot.2 m hm

theorem findOrphan_spec (s : State V) (hsmall : dataSize < 2 ^ 32) :
    ∀ {nodes : List Node} {limit offset : Nat}, nodes.length < limit →
      (∀ n ∈ nodes, 0#16 ∉ n.variableName) → Holds data offset (areaBytes nodes) →
      offset + areaSize nodes = dataSize →
      ∃ result, findOrphan p s data dataSize limit offset = some result ∧
        Orphan p s.contents nodes result := by
  intro nodes
  induction nodes with
  | nil =>
      intro limit offset hlimit _ _ hend
      obtain ⟨turns, rfl⟩ : ∃ turns, limit = turns + 1 := ⟨limit - 1, by omega⟩
      have hoffset : offset = dataSize := hend
      rw [findOrphan, Nat.mod_eq_of_lt hsmall, if_neg (by omega)]
      exact ⟨_, rfl, .none fun k hk => absurd rfl hk⟩
  | cons n nodes ih =>
      intro limit offset hlimit hterminated hheld hend
      obtain ⟨turns, rfl⟩ : ∃ turns, limit = turns + 1 := ⟨limit - 1, by omega⟩
      rw [List.length_cons, Nat.add_lt_add_iff_right] at hlimit
      rw [areaSize_cons, ← Nat.add_assoc] at hend
      have hsize : n.size = 28 + n.certData.length + 2 * n.variableName.length := rfl
      rw [areaBytes, List.flatMap_cons, holds_append, Node.bytes_length, ← areaBytes] at hheld
      obtain ⟨hname, hrest⟩ := List.forall_mem_cons.mp hterminated
      have hkey := keyAt_eq (by omega) hname hheld.1
      have hnode := nodeAt_of_holds (by omega) hheld.1
      have hfor : n.IsFor (keyAt data offset).variableName (keyAt data offset).vendorGuid
          = true := by
        rw [hkey, Node.isFor_iff]
        exact ⟨rfl, rfl⟩
      have hthis : certOf (n :: nodes) (keyAt data offset) ≠ none := by
        intro hnone
        exact absurd ((certOf_eq_none.mp hnone n List.mem_cons_self).symm.trans hfor)
          Bool.false_ne_true
      have hother : ∀ k : Key, n.IsFor k.variableName k.vendorGuid = true →
          k = keyAt data offset := by
        intro k hk
        obtain ⟨hg, hv⟩ := Node.isFor_iff.mp hk
        obtain ⟨name, guid, _⟩ := k
        simp only at hg hv
        subst hg hv
        exact hkey.symm
      rw [findOrphan, Nat.mod_eq_of_lt hsmall, if_pos (by omega)]
      split
      · rename_i halloc
        exact ⟨_, rfl, .error halloc⟩
      · simp only [hnode.nodeSize]
        rw [Nat.mod_eq_of_lt (show offset + n.size < 2 ^ 32 by omega)]
        cases hfind : s.find (keyAt data offset) with
        | none =>
            refine ⟨_, rfl, .some hthis ?_⟩
            rintro ⟨x, hx, -⟩
            rw [contents_eq_none.mpr hfind] at hx
            cases hx
        | some v =>
            simp only
            split
            · rename_i hnot
              refine ⟨_, rfl, .some hthis ?_⟩
              rintro ⟨x, hx, htime⟩
              rw [contents_of_find hfind] at hx
              cases hx
              exact absurd (hnot.symm.trans htime) Bool.false_ne_true
            · -- The node has its variable.
              rename_i htime
              rw [Bool.not_eq_false] at htime
              obtain ⟨result, hresult, horphan⟩ := ih hlimit hrest hheld.2 hend
              refine ⟨result, hresult, ?_⟩
              cases horphan with
              | error halloc => exact .error halloc
              | none hall =>
                  refine .none fun k hk => ?_
                  rcases certOf_cons_cases hk with hk | hk
                  · rw [hother k hk]
                    exact ⟨v.content, contents_of_find hfind, htime⟩
                  · exact hall k hk
              | some hk hnot => exact .some (certOf_cons_ne hk) hnot

theorem IsCertDb.authenticated {c : Contents}
    (h : IsCertDb p c efiVariableNonVolatile nodes) : Authenticated c certDbKey := by
  obtain ⟨timeStamp, hstored⟩ := h.stored
  exact ⟨_, hstored, (by decide : Content.isTime
    ⟨dbBytes [], dbAttributes efiVariableNonVolatile, noTime⟩ = true)⟩

/-- What turns of the loop do: certificates go, the variables of which are not there, and no
    other variable changes. -/
structure Cleaned (p : Platform) (c c' : Contents) (nodes nodes' : List Node) : Prop where
  isCertDb : IsCertDb p c' efiVariableNonVolatile nodes'
  kept : ∀ k, certOf nodes' k = certOf nodes k ∨ certOf nodes' k = none ∧ ¬Authenticated c k
  frame : ∀ k ≠ certDbKey, c' k = c k

theorem Cleaned.authenticated_iff {c c' : Contents} {nodes' : List Node}
    (hdb : IsCertDb p c efiVariableNonVolatile nodes) (h : Cleaned p c c' nodes nodes') (k : Key) :
    Authenticated c' k ↔ Authenticated c k := by
  by_cases hk : k = certDbKey
  · subst hk
    exact iff_of_true h.isCertDb.authenticated hdb.authenticated
  · rw [Authenticated, h.frame k hk, Authenticated]

theorem Cleaned.trans {c c' c'' : Contents} {nodes' nodes'' : List Node}
    (hdb : IsCertDb p c efiVariableNonVolatile nodes) (h : Cleaned p c c' nodes nodes')
    (h' : Cleaned p c' c'' nodes' nodes'') : Cleaned p c c'' nodes nodes'' where
  isCertDb := h'.isCertDb
  kept := by
    intro k
    rcases h'.kept k with hkept | ⟨hnone, hnot⟩
    · rw [hkept]
      exact h.kept k
    · exact .inr ⟨hnone, mt (h.authenticated_iff hdb k).mpr hnot⟩
  frame := fun k hk => (h'.frame k hk).trans (h.frame k hk)

theorem nonVolatile_or (attributes : Attributes) :
    (attributes ||| efiVariableNonVolatile).has efiVariableNonVolatile = true := by
  rw [Attributes.has, BitVec.and_or_distrib_right, BitVec.and_self, bne_iff_ne]
  intro hzero
  have hbit := congrArg (fun x : BitVec 32 => x.getLsbD 0) hzero
  simp [efiVariableNonVolatile] at hbit

/-- The database of `attributes | EFI_VARIABLE_NON_VOLATILE` is "certdb". -/
theorem isCertDb_nonVolatile {c : Contents} (attributes : Attributes) :
    IsCertDb p c (attributes ||| efiVariableNonVolatile) nodes
      ↔ IsCertDb p c efiVariableNonVolatile nodes := by
  have hkey : dbKey (attributes ||| efiVariableNonVolatile) = dbKey efiVariableNonVolatile := by
    rw [dbKey, if_pos (nonVolatile_or attributes)]
    rfl
  have hattributes : dbAttributes (attributes ||| efiVariableNonVolatile)
      = dbAttributes efiVariableNonVolatile := by
    rw [dbAttributes, if_pos (nonVolatile_or attributes)]
    rfl
  constructor <;> rintro ⟨⟨timeStamp, hstored⟩, hdistinct, hsize⟩
  · exact ⟨⟨timeStamp, by rw [← hkey, ← hattributes, hstored]⟩, hdistinct, hsize⟩
  · exact ⟨⟨timeStamp, by rw [hkey, hattributes, hstored]⟩, hdistinct, hsize⟩

/-- A turn of the outer loop. -/
theorem cleanTurn_spec (hp : p.Sound)
    (hdb : IsCertDb p s.contents efiVariableNonVolatile nodes) :
    ∃ result, cleanTurn p s = some result ∧
      ((∃ size, p.allocateZeroPool size = false) ∧ result = .inl .outOfResources ∨
        (∀ k, certOf nodes k ≠ none → Authenticated s.contents k) ∧ result = .inl .success ∨
        ∃ s' nodes', result = .inr s' ∧
          Cleaned p s.contents s'.contents nodes nodes' ∧
          (UpdateFails V efiVariableNonVolatile ∨ nodes'.length < nodes.length)) := by
  obtain ⟨db, hfind, hisDb, hlimit⟩ := hdb.exists_db hp
  have hsize := hisDb.size
  have hfound : s.find certDbKey = some db := hfind
  obtain ⟨orphan, hloop, horphan⟩ := findOrphan_spec (p := p) s hisDb.small hlimit
    hdb.distinct.terminated hisDb.area hsize.symm
  rw [cleanTurn, hfound]
  simp only
  rw [if_neg (by omega), hloop, Option.bind_some]
  cases horphan with
  | error halloc => exact ⟨_, rfl, .inl ⟨⟨_, halloc⟩, rfl⟩⟩
  | none hall => exact ⟨_, rfl, .inr (.inl ⟨hall, rfl⟩)⟩
  | @some k attributes hk hnot =>
      obtain ⟨status, s', hdelete, hcases⟩ :=
        deleteCertsFromDb_spec hp ((isCertDb_nonVolatile attributes).mpr hdb) k
      simp only [hdelete, Option.map_some]
      rcases hcases with ⟨hsame, -, hfails⟩ | ⟨-, nodes', hchanged, hmap, hless⟩
      · refine ⟨_, rfl, .inr (.inr ⟨s', nodes, rfl,
          ⟨hsame ▸ hdb, fun _ => .inl rfl, fun _ _ => by rw [hsame]⟩, .inl ?_⟩)⟩
        obtain ⟨store, u, hkey, hu⟩ := (hfails.resolve_left hk).fails
        rw [dbKey, if_pos (nonVolatile_or attributes)] at hkey
        exact ⟨store, u, hkey, hu⟩
      · refine ⟨_, rfl, .inr (.inr ⟨s', nodes', rfl,
          ⟨(isCertDb_nonVolatile attributes).mp hchanged.isCertDb, fun k' => ?_, fun k' hk' => ?_⟩,
          .inr hless⟩)⟩
        · rw [hmap]
          by_cases hsame : k' = k
          · subst hsame
            exact .inr ⟨Function.update_self .., hnot⟩
          · exact .inl (Function.update_of_ne hsame ..)
        · refine hchanged.frame k' ?_
          rwa [dbKey, if_pos (nonVolatile_or attributes)]

/-! ## The loop -/

/-- The states between the turns of the loop. -/
inductive CleanTurns (p : Platform) : State V → State V → Prop where
  | refl {s : State V} : CleanTurns p s s
  | turn {s s' s'' : State V} : cleanTurn p s = some (.inr s') → CleanTurns p s' s'' →
      CleanTurns p s s''

theorem IsCertDb.cleaned_refl {c : Contents} (h : IsCertDb p c efiVariableNonVolatile nodes) :
    Cleaned p c c nodes nodes := ⟨h, fun _ => .inl rfl, fun _ _ => rfl⟩

/-- However many turns there were, only certificates without their variable are gone. -/
theorem CleanTurns.cleaned (hp : p.Sound) (h : CleanTurns p s s')
    (hdb : IsCertDb p s.contents efiVariableNonVolatile nodes) :
    ∃ nodes', Cleaned p s.contents s'.contents nodes nodes' := by
  induction h generalizing nodes with
  | refl => exact ⟨nodes, hdb.cleaned_refl⟩
  | @turn s s₁ s' hturn _ ih =>
      obtain ⟨result, hresult, hcases⟩ := cleanTurn_spec hp hdb
      rw [hturn] at hresult
      cases hresult
      rcases hcases with ⟨-, heq⟩ | ⟨-, heq⟩ | ⟨_, nodes₁, heq, hcleaned, -⟩
      · exact nomatch heq
      · exact nomatch heq
      · cases heq
        obtain ⟨nodes', hcleaned'⟩ := ih hcleaned.isCertDb
        exact ⟨nodes', hcleaned.trans hdb hcleaned'⟩

/-- What `CleanCertsFromDb` returns comes after some turns. -/
theorem cleanCertsFromDb_turns {status : Status} : ∀ {limit : Nat} {s : State V},
    cleanCertsFromDb p limit s = some (status, s') →
    CleanTurns p s s' ∧ cleanTurn p s' = some (.inl status) := by
  intro limit
  induction limit with
  | zero => exact fun h => nomatch h
  | succ limit ih =>
      intro s h
      rw [cleanCertsFromDb] at h
      obtain ⟨result, hturn, h⟩ := Option.bind_eq_some_iff.mp h
      cases result with
      | inl st =>
          cases h
          exact ⟨.refl, hturn⟩
      | inr s₁ =>
          obtain ⟨hturns, hlast⟩ := ih h
          exact ⟨.turn hturn hturns, hlast⟩

/-- Where it is successful, the certificates that are left are those of variables. -/
theorem cleanCertsFromDb_spec (hp : p.Sound) {status : Status} {limit : Nat}
    (hdb : IsCertDb p s.contents efiVariableNonVolatile nodes)
    (h : cleanCertsFromDb p limit s = some (status, s')) :
    ∃ nodes', Cleaned p s.contents s'.contents nodes nodes' ∧
      (status.isError = false → ∀ k, certOf nodes' k ≠ none → Authenticated s.contents k) := by
  obtain ⟨hturns, hlast⟩ := cleanCertsFromDb_turns h
  obtain ⟨nodes', hcleaned⟩ := hturns.cleaned hp hdb
  refine ⟨nodes', hcleaned, fun hok k hk => ?_⟩
  obtain ⟨result, hresult, hcases⟩ := cleanTurn_spec hp hcleaned.isCertDb
  rw [hlast] at hresult
  cases hresult
  rcases hcases with ⟨-, heq⟩ | ⟨hall, -⟩ | ⟨_, _, heq, -⟩
  · cases heq
    exact absurd hok (by decide)
  · exact (hcleaned.authenticated_iff hdb k).mp (hall k hk)
  · exact nomatch heq

/-- Where no update of "certdb" fails, and there is memory, the loop ends. -/
theorem cleanCertsFromDb_ends (hp : p.Sound) (hV : ¬UpdateFails V efiVariableNonVolatile)
    (halloc : ∀ size, p.allocateZeroPool size = true) {limit : Nat}
    (hdb : IsCertDb p s.contents efiVariableNonVolatile nodes) (hlimit : nodes.length < limit) :
    ∃ s', cleanCertsFromDb p limit s = some (.success, s') := by
  -- Every turn takes out a node.
  induction limit generalizing s nodes with
  | zero => exact absurd hlimit (Nat.not_lt_zero _)
  | succ limit ih =>
      obtain ⟨result, hturn, hcases⟩ := cleanTurn_spec hp hdb
      rw [cleanCertsFromDb, hturn, Option.bind_some]
      rcases hcases with ⟨⟨size, hnone⟩, -⟩ | ⟨-, rfl⟩ | ⟨s₁, nodes₁, rfl, hcleaned, hless⟩
      · exact absurd ((halloc size).symm.trans hnone) (by decide)
      · exact ⟨s, rfl⟩
      · have hlength := hless.resolve_left hV
        exact ih hcleaned.isCertDb (by omega)

/-- Where "certdb" can be set, the certificates of variables are kept, the others are gone, and
    no other variable changes. -/
theorem cleanCertsFromDb_exact (hp : p.Sound) (hV : ¬UpdateFails V efiVariableNonVolatile)
    (halloc : ∀ size, p.allocateZeroPool size = true)
    (hdb : IsCertDb p s.contents efiVariableNonVolatile nodes) :
    ∃ s', cleanCertsFromDb p p.limit s = some (.success, s') ∧
      (∀ k, Authenticated s.contents k → getCertsFromDb p s' k efiVariableNonVolatile
        = getCertsFromDb p s k efiVariableNonVolatile) ∧
      (∀ k, ¬Authenticated s.contents k →
        getCertsFromDb p s' k efiVariableNonVolatile = some (.error .notFound)) ∧
      ∀ k ≠ certDbKey, s'.contents k = s.contents k := by
  obtain ⟨db, -, -, hlimit⟩ := hdb.exists_db hp
  obtain ⟨s', hclean⟩ := cleanCertsFromDb_ends hp hV halloc hdb hlimit
  obtain ⟨nodes', hcleaned, hleft⟩ := cleanCertsFromDb_spec hp hdb hclean
  refine ⟨s', hclean, fun k hk => ?_, fun k hk => ?_, hcleaned.frame⟩
  · rw [getCertsFromDb_eq hp hcleaned.isCertDb, getCertsFromDb_eq hp hdb,
      (hcleaned.kept k).resolve_right fun h => h.2 hk]
  · have hnone : certOf nodes' k = none := by
      by_contra hsome
      exact hk (hleft rfl k hsome)
    rw [getCertsFromDb_eq hp hcleaned.isCertDb, hnone]
    rfl

/-! ## A "certdb" that cannot be set -/

/-- A deletion that fails leaves the variables. -/
theorem deleteCertsFromDb_frozen {attributes : Attributes} {status : Status}
    (hfails : ∀ store u, (V.updateVariable store u).1.isError = true)
    (h : deleteCertsFromDb p s k attributes = some (status, s')) : s'.contents = s.contents := by
  have hset : ∀ newCertDb, (setDb s attributes newCertDb).2.contents = s.contents :=
    fun _ => funext fun k => V.update_error _ _ (hfails _ _) k
  rw [deleteCertsFromDb] at h
  split at h
  · cases h
    rfl
  · split_ifs at h
    · cases h
      rfl
    · cases h
      rfl
    · obtain ⟨found, -, heq⟩ := Option.map_eq_some_iff.mp h
      cases found with
      | error st =>
          cases heq
          rfl
      | ok f =>
          simp only at heq
          split_ifs at heq
          · cases heq
            rfl
          · rw [← show (setDb s attributes _).2 = s' from congrArg Prod.snd heq]
            exact hset _

theorem cleanTurn_inr (h : cleanTurn p s = some (.inr s')) :
    ∃ k attributes status, deleteCertsFromDb p s k (attributes ||| efiVariableNonVolatile)
      = some (status, s') := by
  rw [cleanTurn] at h
  split at h
  · exact nomatch h
  · split at h
    · exact nomatch h
    · obtain ⟨orphan, -, h⟩ := Option.bind_eq_some_iff.mp h
      split at h
      · exact nomatch h
      · exact nomatch h
      · obtain ⟨⟨status, s₁⟩, hdelete, heq⟩ := Option.map_eq_some_iff.mp h
        cases heq
        exact ⟨_, _, status, hdelete⟩

/-- Where no update succeeds, and a certificate is without its variable, the loop does not
    end: the same certificate is found in every turn. -/
theorem cleanCertsFromDb_hangs (hp : p.Sound)
    (hfails : ∀ store u, (V.updateVariable store u).1.isError = true)
    (halloc : ∀ size, p.allocateZeroPool size = true)
    (hdb : IsCertDb p s.contents efiVariableNonVolatile nodes) (hcert : certOf nodes k ≠ none)
    (hk : ¬Authenticated s.contents k) (limit : Nat) : cleanCertsFromDb p limit s = none := by
  induction limit generalizing s with
  | zero => rfl
  | succ limit ih =>
      obtain ⟨result, hturn, hcases⟩ := cleanTurn_spec hp hdb
      rcases hcases with ⟨⟨size, hnone⟩, -⟩ | ⟨hall, -⟩ | ⟨s₁, _, rfl, -⟩
      · exact absurd ((halloc size).symm.trans hnone) (by decide)
      · exact absurd (hall k hcert) hk
      · obtain ⟨_, _, _, hdelete⟩ := cleanTurn_inr hturn
        have hsame := deleteCertsFromDb_frozen hfails hdelete
        rw [cleanCertsFromDb, hturn, Option.bind_some]
        exact ih (hsame ▸ hdb) (hsame ▸ hk)

end Clean

/-! ### A certificate without its variable -/

def lostContents : Contents := fun k =>
  if k = certDbKey then
    some ⟨dbBytes [vendorKey.node []], dbAttributes efiVariableNonVolatile, noTime⟩
  else none

def lostState : State plainDriver where
  store := lostContents
  mPlatformMode := setupMode
  mVendorKeyState := 1#8
  mCertDbStore := fun _ => 0#8

theorem lost_isCertDb {V : VariableDriver} {s : State V} (h : s.contents = lostContents) :
    IsCertDb barePlatform s.contents efiVariableNonVolatile [vendorKey.node []] := by
  rw [h]
  refine ⟨⟨noTime, rfl⟩, ⟨List.pairwise_singleton .., fun n hn => ?_⟩, (by decide : 34 ≤ 4096)⟩
  rw [List.mem_singleton.mp hn]
  exact vendorKey.terminated

/-- The certificate is taken out. -/
theorem cleanCertsFromDb_exact_lost : ∃ s',
    cleanCertsFromDb barePlatform barePlatform.limit lostState = some (.success, s') ∧
      (∀ k, Authenticated lostState.contents k →
        getCertsFromDb barePlatform s' k efiVariableNonVolatile
          = getCertsFromDb barePlatform lostState k efiVariableNonVolatile) ∧
      (∀ k, ¬Authenticated lostState.contents k →
        getCertsFromDb barePlatform s' k efiVariableNonVolatile = some (.error .notFound)) ∧
      ∀ k ≠ certDbKey, s'.contents k = lostState.contents k :=
  cleanCertsFromDb_exact barePlatform_sound
    (by
      rintro ⟨store, u, -, hdeletes, herror⟩
      change (if u.deletes && (store u.key).isNone then _ else _ : Status × Contents).1.isError
        = true at herror
      rw [hdeletes, Bool.false_and, if_neg Bool.false_ne_true] at herror
      exact absurd (show Status.success.isError = true from herror) (by decide))
    (fun _ => rfl) (lost_isCertDb (plain_contents lostState))

/-- A driver that has lost its power. -/
def deadDriver : VariableDriver where
  Store := Contents
  findVariable := plainDriver.findVariable
  updateVariable s _ := (.otherError 7, s)
  copyMem := plainDriver.copyMem
  getScratchBuffer := plainDriver.getScratchBuffer
  update_error _ _ _ _ := rfl
  update_success _ _ h :=
    absurd (show (Status.otherError 7).isError = false from h) (by decide)
  delete_missing _ _ _ _ := rfl
  copyMem_written := plainDriver.copyMem_written

def deadState : State deadDriver where
  store := lostContents
  mPlatformMode := setupMode
  mVendorKeyState := 1#8
  mCertDbStore := fun _ => 0#8

/-- It stays there, and is found again. -/
theorem cleanCertsFromDb_hangs_lost : cleanCertsFromDb barePlatform 1000 deadState = none :=
  have hcontents : deadState.contents = lostContents := plain_contents lostState
  cleanCertsFromDb_hangs (k := vendorKey) barePlatform_sound (fun _ _ => rfl) (fun _ => rfl)
    (lost_isCertDb hcontents) (by decide)
    (by
      rintro ⟨x, hx, -⟩
      rw [hcontents] at hx
      exact nomatch hx) 1000

end AuthVariable
