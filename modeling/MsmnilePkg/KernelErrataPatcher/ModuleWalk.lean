/-
  MsmnilePkg.KernelErrataPatcher.ModuleWalk

  A word patch over every module of a load-order list.

  The list is read while the images are rewritten, so the walk is described
  under the assumption that the loader's structures lie outside the images.
  Images may overlap: a patch that does nothing to its own results may then
  visit a word more than once.
-/

import MsmnilePkg.KernelErrataPatcher.Reference

namespace KernelErrataPatcher

open ByteMem WordScan

/-! ## Images and the words in them -/

/-- The byte at `a` lies in the image. -/
def InImage (base : Addr) (size : BitVec 64) (a : Addr) : Prop := (a - base).toNat < size.toNat

instance (base : Addr) (size : BitVec 64) (a : Addr) : Decidable (InImage base size a) :=
  inferInstanceAs (Decidable (_ < _))

/-- The aligned word that holds the byte at `b`. -/
def alignedWord (b : Addr) : Addr := b - BitVec.ofNat 64 (b.toNat % 4)

theorem alignedWord_aligned (b : Addr) : (alignedWord b).toNat % 4 = 0 := by
  unfold alignedWord
  bv_omega

/-- A proper image holds aligned words as a whole. -/
theorem ImageOk.inImage_alignedWord {base : Addr} {size : BitVec 64} (h : ImageOk base size)
    (b : Addr) : InImage base size (alignedWord b) ↔ InImage base size b := by
  obtain ⟨hb, hs, hw⟩ := h
  unfold InImage alignedWord
  constructor <;> intro hin <;> bv_omega

theorem wordAddr_inImage {base : Addr} {size : BitVec 64} {k : Nat} (hk : k < wordCount size) :
    InImage base size (wordAddr base k) := by
  have := size.isLt
  unfold InImage wordAddr
  unfold wordCount at hk
  bv_omega

theorem wordAddr_aligned {base : Addr} (hbase : base.toNat % 4 = 0) (k : Nat) :
    (wordAddr base k).toNat % 4 = 0 := by
  unfold wordAddr
  bv_omega

/-- The words of `m'` are those of `m`, with `g` applied to the ones that lie inside. -/
def Patched (g : BitVec 32 → BitVec 32) (inside : Addr → Prop) (m m' : Mem) : Prop :=
  ∀ a : Addr, a.toNat % 4 = 0 →
    (inside a → read32 m' a = g (read32 m a)) ∧ (¬ inside a → read32 m' a = read32 m a)

theorem Patched.refl (g : BitVec 32 → BitVec 32) (m : Mem) : Patched g (fun _ => False) m m :=
  fun _ _ => ⟨False.elim, fun _ => rfl⟩

/-- A byte whose word lies outside keeps its value. -/
theorem Patched.byte {g : BitVec 32 → BitVec 32} {inside : Addr → Prop} {m m' : Mem}
    (h : Patched g inside m m') {b : Addr} (hb : ¬ inside (alignedWord b)) : m' b = m b := by
  have hword := (h (alignedWord b) (alignedWord_aligned b)).2 hb
  have hi : b.toNat % 4 < 4 := Nat.mod_lt _ (by omega)
  have haddr : alignedWord b + BitVec.ofNat 64 (b.toNat % 4) = b := by
    unfold alignedWord
    bv_omega
  have hbyte := congrArg (fun w => byteOf32 w (b.toNat % 4)) hword
  rwa [byteOf32_read32 m' _ hi, byteOf32_read32 m _ hi, haddr] at hbyte

/-- A second patch with the same `g` adds its words to those of the first. -/
theorem Patched.trans {g : BitVec 32 → BitVec 32} (hg : ∀ w, g (g w) = g w)
    {inside inside' : Addr → Prop} {m m' m'' : Mem} (h : Patched g inside m m')
    (h' : Patched g inside' m' m'') : Patched g (fun a => inside a ∨ inside' a) m m'' := by
  intro a ha
  obtain ⟨hin, hout⟩ := h a ha
  obtain ⟨hin', hout'⟩ := h' a ha
  by_cases hA : inside a
  · by_cases hB : inside' a
    · exact ⟨fun _ => by rw [hin' hB, hin hA, hg], fun hno => absurd (Or.inl hA) hno⟩
    · exact ⟨fun _ => by rw [hout' hB, hin hA], fun hno => absurd (Or.inl hA) hno⟩
  · by_cases hB : inside' a
    · exact ⟨fun _ => by rw [hin' hB, hout hA], fun hno => absurd (Or.inr hB) hno⟩
    · exact ⟨fun hor => absurd hor (not_or.mpr ⟨hA, hB⟩), fun _ => by rw [hout' hB, hout hA]⟩

theorem Patched.congr {g : BitVec 32 → BitVec 32} {inside inside' : Addr → Prop} {m m' : Mem}
    (h : Patched g inside m m') (hiff : ∀ a, inside a ↔ inside' a) : Patched g inside' m m' := by
  intro a ha
  rw [← hiff a]
  exact h a ha

theorem scan_patched {base : Addr} {size : BitVec 64} (h : ImageOk base size)
    (g : BitVec 32 → BitVec 32) (m : Mem) :
    Patched g (InImage base size) m
      (scanUntil never (patchWord g) (wordCount size) base m) := by
  obtain ⟨hb, hs, hw⟩ := h
  have hn : 4 * wordCount size = size.toNat := by unfold wordCount; omega
  intro a ha
  have hrel : (a - base).toNat % 4 = 0 := by bv_omega
  constructor
  · intro hin
    have hk : (a - base).toNat / 4 < wordCount size := by unfold InImage at hin; omega
    -- A word of the image is one of those the scan comes to.
    have haddr : wordAddr base ((a - base).toNat / 4) = a := by
      unfold wordAddr
      rw [show 4 * ((a - base).toNat / 4) = (a - base).toNat by omega]
      bv_omega
    have hword := scan_patch_word g (wordCount size) base m (by omega) _ hk
    rwa [haddr] at hword
  · intro hout
    -- None of the bytes of another word is in the image.
    refine read32_congr fun i hi => scan_patch_other g _ _ _ ?_
    unfold InImage at hout
    have := (a - base).isLt
    have hbyte : (a + BitVec.ofNat 64 i - base).toNat = (a - base).toNat + i := by bv_omega
    omega

/-! ## The load-order list -/

/-- From `entry` on, the links lead through the entries of the list back to `head`. -/
inductive LinkChain (m : Mem) (head : Addr) : Addr → List Addr → Prop where
  | nil : LinkChain m head head []
  | cons {entry : Addr} {rest : List Addr} (hne : entry ≠ head)
      (hrest : LinkChain m head (forwardLink m entry) rest) :
      LinkChain m head entry (entry :: rest)

/-- The fields of an entry that the walk reads lie outside an image. -/
structure FieldsOutside (base : Addr) (size : BitVec 64) (entry : Addr) : Prop where
  forwardLink : ∀ i < 8, ¬ InImage base size (entry + BitVec.ofNat 64 i)
  dllBase : ∀ i < 8, ¬ InImage base size (entry + 48#64 + BitVec.ofNat 64 i)
  sizeOfImage : ∀ i < 4, ¬ InImage base size (entry + 64#64 + BitVec.ofNat 64 i)

/-- A well-formed load-order list with the entries `mods`. -/
structure ModuleList (m : Mem) (loaderBlock : Addr) (mods : List Addr) : Prop where
  chain : LinkChain m (loadOrderListHead loaderBlock)
    (forwardLink m (loadOrderListHead loaderBlock)) mods
  images : ∀ d ∈ mods, ImageOk (dllBase m d) (sizeOfImage m d)
  fields : ∀ e ∈ mods, ∀ d ∈ mods, FieldsOutside (dllBase m d) (sizeOfImage m d) e
  head : ∀ d ∈ mods, ∀ i < 8,
    ¬ InImage (dllBase m d) (sizeOfImage m d) (loadOrderListHead loaderBlock + BitVec.ofNat 64 i)

/-- The address lies in the image of one of the modules. -/
def InSomeImage (m : Mem) (mods : List Addr) (a : Addr) : Prop :=
  ∃ d ∈ mods, InImage (dllBase m d) (sizeOfImage m d) a

/-- The two memories have the same fields in an entry. -/
structure FieldsKept (m m' : Mem) (entry : Addr) : Prop where
  forwardLink : forwardLink m' entry = forwardLink m entry
  dllBase : dllBase m' entry = dllBase m entry
  sizeOfImage : sizeOfImage m' entry = sizeOfImage m entry

theorem FieldsKept.trans {m m' m'' : Mem} {entry : Addr} (h : FieldsKept m m' entry)
    (h' : FieldsKept m' m'' entry) : FieldsKept m m'' entry :=
  ⟨h'.1.trans h.1, h'.2.trans h.2, h'.3.trans h.3⟩

theorem FieldsOutside.kept {base : Addr} {size : BitVec 64} {m m' : Mem} {entry : Addr}
    (h : FieldsOutside base size entry) (hbyte : ∀ b, ¬ InImage base size b → m' b = m b) :
    FieldsKept m m' entry where
  forwardLink := read64_congr fun i hi => hbyte _ (h.forwardLink i hi)
  dllBase := read64_congr fun i hi => hbyte _ (h.dllBase i hi)
  sizeOfImage :=
    congrArg (BitVec.setWidth 64) (read32_congr fun i hi => hbyte _ (h.sizeOfImage i hi))

/-- The scan of one image keeps the bytes outside of it. -/
theorem scan_patched_byte {base : Addr} {size : BitVec 64} (h : ImageOk base size)
    (g : BitVec 32 → BitVec 32) (m : Mem) {b : Addr} (hb : ¬ InImage base size b) :
    scanUntil never (patchWord g) (wordCount size) base m b = m b :=
  (scan_patched h g m).byte fun hin => hb ((h.inImage_alignedWord b).mp hin)

/-! ## The walk -/

/-- One module after the other, each image is patched with the bounds it had at first. -/
theorem forEachModule_patched {g : BitVec 32 → BitVec 32} (hg : ∀ w, g (g w) = g w) {m0 : Mem}
    {head : Addr} {all : List Addr}
    (himages : ∀ d ∈ all, ImageOk (dllBase m0 d) (sizeOfImage m0 d))
    (hfields : ∀ e ∈ all, ∀ d ∈ all, FieldsOutside (dllBase m0 d) (sizeOfImage m0 d) e)
    {entry : Addr} {mods : List Addr} (hchain : LinkChain m0 head entry mods) :
    ∀ (m : Mem) (inside : Addr → Prop) (fuel : Nat), mods ⊆ all →
      (∀ e ∈ all, FieldsKept m0 m e) → Patched g inside m0 m → mods.length < fuel →
      ∃ m', forEachModule id (scanImage (patchWord g)) head fuel entry m = some m' ∧
        (∀ e ∈ all, FieldsKept m0 m' e) ∧
        Patched g (fun a => inside a ∨ InSomeImage m0 mods a) m0 m' := by
  -- By induction on the list.  The invariant: the fields of the modules are as at the start,
  -- and what was patched so far lies in the images that were visited.
  induction hchain with
  | nil =>
      intro m inside fuel hsub hkept hpatched hfuel
      obtain ⟨fuel, rfl⟩ : ∃ k, fuel = k + 1 := ⟨fuel - 1, by omega⟩
      refine ⟨m, by rw [forEachModule, if_pos rfl], hkept, hpatched.congr fun a => ?_⟩
      simp [InSomeImage]
  | cons hne hrest ih =>
      rename_i entry rest
      intro m inside fuel hsub hkept hpatched hfuel
      obtain ⟨fuel, rfl⟩ : ∃ k, fuel = k + 1 := ⟨fuel - 1, by omega⟩
      have hentry : entry ∈ all := hsub (List.mem_cons_self ..)
      have hok := himages entry hentry
      obtain ⟨m1, hm1⟩ : ∃ m1, m1 = scanUntil never (patchWord g)
          (wordCount (sizeOfImage m0 entry)) (dllBase m0 entry) m := ⟨_, rfl⟩
      -- The scan of one image keeps the fields of every module.
      have hkept1 : ∀ e ∈ all, FieldsKept m0 m1 e := by
        intro e he
        refine (hkept e he).trans ((hfields e he entry hentry).kept fun b hb => ?_)
        rw [hm1]
        exact scan_patched_byte hok g m hb
      have hpatched1 := hpatched.trans hg (hm1 ▸ scan_patched hok g m)
      have hstep : forEachModule id (scanImage (patchWord g)) head (fuel + 1) entry m
          = forEachModule id (scanImage (patchWord g)) head fuel (forwardLink m0 entry) m1 := by
        rw [forEachModule, if_neg hne]
        simp only [id_eq]
        rw [(hkept entry hentry).dllBase, (hkept entry hentry).sizeOfImage, scanImage_eq hok,
          ← hm1, Option.bind_eq_bind, Option.bind_some, (hkept1 entry hentry).forwardLink]
      obtain ⟨m', hm', hkept', hpatched'⟩ := ih m1 _ fuel
        (fun d hd => hsub (List.mem_cons_of_mem _ hd)) hkept1 hpatched1 (by simpa using hfuel)
      refine ⟨m', hstep.trans hm', hkept', hpatched'.congr fun a => ?_⟩
      simp [InSomeImage, or_assoc]

theorem ModuleList.byte {g : BitVec 32 → BitVec 32} {m m' : Mem} {loaderBlock : Addr}
    {mods : List Addr} (h : ModuleList m loaderBlock mods)
    (hpatched : Patched g (InSomeImage m mods) m m') {b : Addr} (hb : ¬ InSomeImage m mods b) :
    m' b = m b := by
  refine hpatched.byte ?_
  rintro ⟨d, hd, hin⟩
  exact hb ⟨d, hd, ((h.images d hd).inImage_alignedWord b).mp hin⟩

/-- A list whose entries keep their fields stays well formed. -/
theorem ModuleList.of_kept {m m' : Mem} {loaderBlock : Addr} {mods : List Addr}
    (h : ModuleList m loaderBlock mods) (hkept : ∀ e ∈ mods, FieldsKept m m' e)
    (hhead : forwardLink m' (loadOrderListHead loaderBlock)
      = forwardLink m (loadOrderListHead loaderBlock)) : ModuleList m' loaderBlock mods := by
  have hchain : ∀ {entry : Addr} {rest : List Addr},
      LinkChain m (loadOrderListHead loaderBlock) entry rest → rest ⊆ mods →
        LinkChain m' (loadOrderListHead loaderBlock) entry rest := by
    intro entry rest hc
    -- The induction is on the chain; each link is a field that is kept.
    induction hc with
    | nil => exact fun _ => .nil
    | cons hne hrest ih =>
        intro hsub
        refine .cons hne ?_
        rw [(hkept _ (hsub (List.mem_cons_self ..))).forwardLink]
        exact ih fun d hd => hsub (List.mem_cons_of_mem _ hd)
  exact {
    chain := by
      rw [hhead]
      exact hchain h.chain (List.Subset.refl _)
    images := by
      intro d hd
      rw [(hkept d hd).dllBase, (hkept d hd).sizeOfImage]
      exact h.images d hd
    fields := by
      intro e he d hd
      rw [(hkept d hd).dllBase, (hkept d hd).sizeOfImage]
      exact h.fields e he d hd
    head := by
      intro d hd i hi
      rw [(hkept d hd).dllBase, (hkept d hd).sizeOfImage]
      exact h.head d hd i hi }

/-- A whole patch: the words in the images are patched, the list is as it was. -/
theorem ModuleList.patched {g : BitVec 32 → BitVec 32} (hg : ∀ w, g (g w) = g w) {m : Mem}
    {loaderBlock : Addr} {mods : List Addr} (h : ModuleList m loaderBlock mods) {fuel : Nat}
    (hfuel : mods.length < fuel) :
    ∃ m', forEachModule id (scanImage (patchWord g)) (loadOrderListHead loaderBlock) fuel
        (forwardLink m (loadOrderListHead loaderBlock)) m = some m' ∧
      ModuleList m' loaderBlock mods ∧ (∀ e ∈ mods, FieldsKept m m' e) ∧
      Patched g (InSomeImage m mods) m m' := by
  obtain ⟨m', hm', hkept, hpatched⟩ := forEachModule_patched hg h.images h.fields h.chain m
    (fun _ => False) fuel (List.Subset.refl _) (fun e _ => ⟨rfl, rfl, rfl⟩) (Patched.refl g m) hfuel
  have hpatched' : Patched g (InSomeImage m mods) m m' := hpatched.congr fun a => by simp
  have hhead : forwardLink m' (loadOrderListHead loaderBlock)
      = forwardLink m (loadOrderListHead loaderBlock) := by
    refine read64_congr fun i hi => h.byte hpatched' ?_
    rintro ⟨d, hd, hin⟩
    exact h.head d hd i hi hin
  exact ⟨m', hm', h.of_kept hkept hhead, hkept, hpatched'⟩

/-! ## A small loader block -/

/-- A loader block at `0x1000` whose only module, the entry at `0x2000`, has the image
    `words` at `0x3000`. -/
def sampleMem (words : List (BitVec 32)) : Mem :=
  writeWords words 0x3000#64
    (write32
      (write64 (write64 (write64 (fun _ => 0#8) 0x1010#64 0x2000#64) 0x2000#64 0x1010#64)
        0x2030#64 0x3000#64)
      0x2040#64 (BitVec.ofNat 32 (4 * words.length)))

/-- A module list of one entry, from the values of its fields. -/
theorem moduleList_singleton {m : Mem} {loaderBlock entry : Addr} (base : Addr)
    (size : BitVec 64) (hfirst : forwardLink m (loadOrderListHead loaderBlock) = entry)
    (hlast : forwardLink m entry = loadOrderListHead loaderBlock)
    (hne : entry ≠ loadOrderListHead loaderBlock) (hbase : dllBase m entry = base)
    (hsize : sizeOfImage m entry = size) (hok : ImageOk base size)
    (hfields : FieldsOutside base size entry)
    (hhead : ∀ i < 8, ¬ InImage base size (loadOrderListHead loaderBlock + BitVec.ofNat 64 i)) :
    ModuleList m loaderBlock [entry] := by
  have hsingle : ∀ {P : Addr → Prop}, P entry → ∀ d ∈ [entry], P d := by
    intro P hP d hd
    rwa [List.mem_singleton.mp hd]
  exact {
    chain := by
      rw [hfirst]
      refine .cons hne ?_
      rw [hlast]
      exact .nil
    images := hsingle (by rwa [hbase, hsize])
    fields := hsingle (hsingle (by rwa [hbase, hsize]))
    head := hsingle (by rwa [hbase, hsize]) }

end KernelErrataPatcher
