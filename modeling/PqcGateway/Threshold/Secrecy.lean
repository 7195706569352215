import PqcGateway.Threshold.Sharing
import Mathlib.Data.List.GetD
import Mathlib.SetTheory.Cardinal.Finite

/-!
# Threshold/Secrecy — fewer than `threshold` shares say nothing about the secret

The random bytes of `splitSecret` are a table `Coefficients`: one row for each byte of the secret.
Given share data on a set of indices, `Gives` collects the tables that produce it.  A table is
judged row by row (`gives_iff`), and a row is a preimage under `Shamir.mask`
(`fitsRow_iff_mask`), whose fibres all have one size.

* `card_gives_eq` — whatever the secret, as many tables give the shares.
-/

namespace PqcGateway

/-! ## Random bytes as a table -/

/-- The random bytes of one `split_secret`: `n` for each of the `ℓ` bytes of the secret. -/
abbrev Coefficients (ℓ n : ℕ) : Type := Fin ℓ → Fin n → UInt8

/-- A system randomness that delivers the table. -/
def tape {ℓ n : ℕ} (r : Coefficients ℓ n) : OsRng := fun k j =>
  if h : k < ℓ ∧ j < n then r ⟨k, h.1⟩ ⟨j, h.2⟩ else 0

/-- The table makes `split_secret` put the data `data` on the shares with an index in `ids`. -/
def Gives {ℓ : ℕ} (config : SharingConfig) (secret : List UInt8) (ids : Finset UInt8)
    (data : UInt8 → List UInt8) (r : Coefficients ℓ (config.threshold.toNat - 1)) : Prop :=
  ∃ out, splitSecret (tape r) secret config = .ok out ∧
    ∀ share ∈ out, share.id ∈ ids → share.data = data share.id

/-- A row of coefficients gives the byte `b` the values `y` on `ids`. -/
def FitsRow {n : ℕ} (b : UInt8) (ids : Finset UInt8) (y : UInt8 → UInt8) (c : Fin n → UInt8) :
    Prop :=
  ∀ id ∈ ids, gf256PolyEval (b :: List.ofFn c) id = y id

/-! ## One row

A byte of the secret and its shares at hand are points of the row's polynomial, and too few to fix
it. -/

section Row

variable {n : ℕ} {ids : Finset UInt8}

/-- The share indices as points of the field. -/
def fieldPoints (ids : Finset UInt8) : Finset GF256 := ids.map GF256.equivByte.symm.toEmbedding

theorem mem_fieldPoints {x : GF256} : x ∈ fieldPoints ids ↔ x.byte ∈ ids := by
  simp [fieldPoints, GF256.equivByte, Equiv.symm]

@[simp] theorem card_fieldPoints (ids : Finset UInt8) : (fieldPoints ids).card = ids.card :=
  Finset.card_map _

theorem zero_notMem_fieldPoints (h : ∀ id ∈ ids, 1 ≤ id) : (0 : GF256) ∉ fieldPoints ids := by
  intro h0
  have := h 0 (mem_fieldPoints.mp h0)
  exact absurd this (by decide)

/-- What the random part has to add to the byte `b` to reach the values `y`. -/
def target (b : UInt8) (ids : Finset UInt8) (y : UInt8 → UInt8) : fieldPoints ids → GF256 :=
  fun x => ⟨y (x : GF256).byte⟩ - ⟨b⟩

/-- A row of bytes as a row of field elements. -/
def rowEquiv (n : ℕ) : (Fin n → UInt8) ≃ (Fin n → GF256) :=
  Equiv.piCongrRight fun _ => GF256.equivByte.symm

/-- **A row fits iff its mask is the target.** -/
theorem fitsRow_iff_mask (b : UInt8) (y : UInt8 → UInt8) (c : Fin n → UInt8) :
    FitsRow b ids y c ↔ Shamir.mask n (fieldPoints ids) (rowEquiv n c) = target b ids y := by
  have hvalue : ∀ x : GF256, gf256PolyEval (b :: List.ofFn c) x.byte
      = (⟨b⟩ + x * ∑ j, rowEquiv n c j * x ^ (j : ℕ) : GF256).byte := by
    intro x
    rw [gf256PolyEval_eq, List.map_cons, List.map_ofFn, Shamir.eval_toPoly_cons,
      Shamir.eval_toPoly_ofFn]
    rfl
  constructor
  · intro h
    funext x
    have hx := h _ (mem_fieldPoints.mp x.2)
    rw [hvalue] at hx
    rw [Shamir.mask_apply, target, ← hx]
    exact (add_sub_cancel_left _ _).symm
  · intro h id hid
    have hx := congrFun h ⟨⟨id⟩, mem_fieldPoints.mpr hid⟩
    rw [Shamir.mask_apply, target] at hx
    rw [show id = (⟨id⟩ : GF256).byte from rfl, hvalue, hx, add_sub_cancel]

variable (hids : ∀ id ∈ ids, 1 ≤ id)
include hids

/-- **Every byte value leaves equally many rows.** -/
theorem card_fitsRow_eq (hn : ids.card ≤ n) (b₁ b₂ : UInt8) (y : UInt8 → UInt8) :
    Nat.card {c : Fin n → UInt8 // FitsRow b₁ ids y c}
      = Nat.card {c : Fin n → UInt8 // FitsRow b₂ ids y c} := by
  have hmask : ∀ b : UInt8, Nat.card {c : Fin n → UInt8 // FitsRow b ids y c}
      = Fintype.card {c // Shamir.mask n (fieldPoints ids) c = target b ids y} := by
    intro b
    rw [← Nat.card_eq_fintype_card]
    exact Nat.card_congr ((rowEquiv n).subtypeEquiv fun c => fitsRow_iff_mask b y c)
  rw [hmask, hmask]
  exact Shamir.card_mask_fiber_eq (zero_notMem_fieldPoints hids)
    ((card_fieldPoints ids).trans_le hn) _ _

/-- **With one index fewer than the threshold there is exactly one row.** -/
theorem existsUnique_fitsRow (hn : ids.card = n) (b : UInt8) (y : UInt8 → UInt8) :
    ∃! c : Fin n → UInt8, FitsRow b ids y c := by
  have hbij := Shamir.mask_bijective (zero_notMem_fieldPoints hids)
    ((card_fieldPoints ids).trans hn)
  have := (hbij.comp (rowEquiv n).bijective).existsUnique (target b ids y)
  simpa only [fitsRow_iff_mask, Function.comp_apply] using this

end Row

/-! ## The whole table -/

section Table

variable {config : SharingConfig} {secret : List UInt8} {ids : Finset UInt8}
  {data : UInt8 → List UInt8} {ℓ : ℕ}

theorem shareCoeffs_tape (r : Coefficients ℓ (config.threshold.toNat - 1)) (k : Fin ℓ)
    (b : UInt8) : shareCoeffs (tape r) config k b = b :: List.ofFn (r k) := by
  refine congrArg (b :: ·) (List.ext_getElem (by simp) fun j hj _ => ?_)
  have hj' : j < config.threshold.toNat - 1 := by simpa using hj
  simp [tape, hj']

/-- The row `c` gives byte `k` of the secret its column of the data. -/
def FitsColumn {n : ℕ} (secret : List UInt8) (ids : Finset UInt8) (data : UInt8 → List UInt8)
    (k : ℕ) (c : Fin n → UInt8) : Prop :=
  FitsRow (secret.getD k 0) ids (fun id => (data id).getD k 0) c

/-- **A table gives the data iff each row fits its column of the data.** -/
theorem gives_iff (hsecret : secret ≠ []) (hℓ : secret.length = ℓ)
    (ht : 1 ≤ config.threshold.toNat) (hids : ∀ id ∈ ids, 1 ≤ id ∧ id ≤ config.totalShares)
    (r : Coefficients ℓ (config.threshold.toNat - 1)) :
    Gives config secret ids data r ↔
      (∀ id ∈ ids, (data id).length = ℓ) ∧ ∀ k : Fin ℓ, FitsColumn secret ids data k (r k) := by
  subst hℓ
  have hshare : Gives config secret ids data r ↔
      ∀ id ∈ ids, (shareOf (tape r) config secret id).data = data id := by
    simp only [Gives, splitSecret_eq hsecret ht, Except.ok.injEq, exists_eq_left', List.mem_map,
      forall_exists_index, and_imp, forall_apply_eq_imp_iff₂]
    exact ⟨fun h id hid => h id (mem_shareIds.mpr (hids id hid)) hid, fun h id _ hid => h id hid⟩
  have hbyte : ∀ (k : Fin secret.length) (id : UInt8),
      (shareOf (tape r) config secret id).data.getD k 0
        = gf256PolyEval (secret.getD k 0 :: List.ofFn (r k)) id := fun k id => by
    rw [getD_shareOf_data k.2, shareCoeffs_tape, List.getD_eq_getElem _ _ k.2]
  rw [hshare]
  constructor
  · intro h
    refine ⟨fun id hid => ?_, fun k id hid => ?_⟩
    · rw [← h id hid, length_shareOf_data]
    · exact (hbyte k id).symm.trans (by rw [h id hid])
  · rintro ⟨hlen, hrow⟩ id hid
    refine List.ext_getElem (by rw [length_shareOf_data, hlen id hid]) fun k hk hk' => ?_
    have hks : k < secret.length := by rwa [length_shareOf_data] at hk
    have hget : _ = (data id).getD k 0 := (hbyte ⟨k, hks⟩ id).trans (hrow ⟨k, hks⟩ id hid)
    rwa [List.getD_eq_getElem _ _ hk, List.getD_eq_getElem _ _ hk'] at hget

/-- The tables that give the data, counted byte by byte. -/
theorem card_gives (hsecret : secret ≠ []) (hℓ : secret.length = ℓ)
    (ht : 1 ≤ config.threshold.toNat) (hids : ∀ id ∈ ids, 1 ≤ id ∧ id ≤ config.totalShares)
    (hdata : ∀ id ∈ ids, (data id).length = ℓ) :
    Nat.card {r : Coefficients ℓ (config.threshold.toNat - 1) // Gives config secret ids data r}
      = ∏ k : Fin ℓ, Nat.card
          {c : Fin (config.threshold.toNat - 1) → UInt8 // FitsColumn secret ids data k c} := by
  rw [← Nat.card_pi]
  refine Nat.card_congr ((Equiv.subtypeEquivRight fun r => ?_).trans Equiv.subtypePiEquivPi)
  rw [gives_iff hsecret hℓ ht hids, and_iff_right hdata]

/-- **Perfect secrecy below the threshold.**  For two secrets of one length and fewer than
`threshold` share indices, any share data on these indices comes from equally many choices of the
random bytes; with `threshold - 1` indices, from exactly one choice of each byte's row. -/
theorem card_gives_eq (config : SharingConfig) (s₁ s₂ : List UInt8) (h₁ : s₁.length = ℓ)
    (h₂ : s₂.length = ℓ) (ids : Finset UInt8) (hids : ∀ id ∈ ids, 1 ≤ id ∧ id ≤ config.totalShares)
    (hcard : ids.card < config.threshold.toNat) :
    (∀ data : UInt8 → List UInt8,
      Nat.card {r : Coefficients ℓ (config.threshold.toNat - 1) // Gives config s₁ ids data r}
        = Nat.card
          {r : Coefficients ℓ (config.threshold.toNat - 1) // Gives config s₂ ids data r}) ∧
    (ids.card + 1 = config.threshold.toNat →
      ∀ data : UInt8 → List UInt8, (∀ id ∈ ids, (data id).length = ℓ) →
        (∀ k < ℓ, ∃! c : Fin (config.threshold.toNat - 1) → UInt8,
          ∀ id ∈ ids, gf256PolyEval (s₁.getD k 0 :: List.ofFn c) id = (data id).getD k 0) ∧
        (s₁ ≠ [] → ∃! r : Coefficients ℓ (config.threshold.toNat - 1),
          Gives config s₁ ids data r)) := by
  have ht : 1 ≤ config.threshold.toNat := by omega
  have hone : ∀ id ∈ ids, 1 ≤ id := fun id hid => (hids id hid).1
  refine ⟨fun data => ?_, fun hn data hdata => ?_⟩
  · obtain rfl | hne₁ := eq_or_ne s₁ []
    · obtain rfl : s₂ = [] := List.eq_nil_of_length_eq_zero (h₂.trans h₁.symm)
      rfl
    have hne₂ : s₂ ≠ [] := by
      rintro rfl
      exact hne₁ (List.eq_nil_of_length_eq_zero (h₁.trans h₂.symm))
    by_cases hdata : ∀ id ∈ ids, (data id).length = ℓ
    · rw [card_gives hne₁ h₁ ht hids hdata, card_gives hne₂ h₂ ht hids hdata]
      exact Finset.prod_congr rfl fun k _ => card_fitsRow_eq hone (by omega) _ _ _
    · -- data of a wrong length comes from no table
      simp only [gives_iff hne₁ h₁ ht hids, gives_iff hne₂ h₂ ht hids, hdata, false_and]
  · have hrow : ∀ k : ℕ, ∃! c : Fin (config.threshold.toNat - 1) → UInt8,
        FitsColumn s₁ ids data k c := fun k => existsUnique_fitsRow hone (by omega) _ _
    refine ⟨fun k _ => hrow k, fun hne => ?_⟩
    choose c hc huniq using hrow
    refine ⟨fun k => c k, (gives_iff hne h₁ ht hids _).mpr ⟨hdata, fun k => hc k⟩, fun r hr => ?_⟩
    exact funext fun k => huniq k _ (((gives_iff hne h₁ ht hids r).mp hr).2 k)

/-- The indices `1` and `3` of a scheme with threshold three. -/
theorem existsUnique_gives_two_of_four :
    ∃! r : Coefficients 1 2, Gives ⟨3, 4⟩ [42] {1, 3} (fun _ => [7]) r := by
  have hids : ∀ id ∈ ({1, 3} : Finset UInt8), 1 ≤ id ∧ id ≤ 4 := by
    simp only [Finset.mem_insert, Finset.mem_singleton, forall_eq_or_imp, forall_eq]
    decide
  have hcard : ({1, 3} : Finset UInt8).card = 2 := Finset.card_pair (by decide)
  exact ((card_gives_eq ⟨3, 4⟩ [42] [9] rfl rfl {1, 3} hids (hcard.trans_lt (by decide))).2
    (congrArg (· + 1) hcard) (fun _ => [7]) (fun _ _ => rfl)).2 (by decide)

end Table

end PqcGateway
