import PqcGateway.Threshold.Codes
import Mathlib.Data.List.GetD

/-!
# Threshold/Reconstruct — reconstruction from any list of shares

`reconstructSecret` is meant for `threshold` different shares of one split.

* `reconstructSecret_eq_ok` — from different shares of one length it returns the secret that lies
  with them, byte by byte, on a polynomial of degree below their number; so from too few shares of a
  split it returns another one.
* `reconstructSecret_of_repeat` — a repeated index ends in the inversion of zero.
* `corruption_visible` — one byte of one share decides that byte of the secret.
* `codes_checked_iff` — no list of recovery codes is refused for its shape.
-/

open Polynomial

namespace PqcGateway

/-! ## Repeated indices

Interpolation divides by the difference of two indices. -/

section

variable {points : List (UInt8 × UInt8)}

theorem nodup_of_abscissa_injective (h : Function.Injective (abscissa points)) :
    (points.map Prod.fst).Nodup := by
  have hofFn : points.map Prod.fst = List.ofFn fun i : Fin points.length => points[i].1 :=
    List.ext_getElem (by simp) fun k _ _ => by simp
  rw [hofFn, List.nodup_ofFn]
  intro i j hij
  exact h (GF256.ext hij)

/-- A first coordinate that comes again makes the denominator zero. -/
theorem prod_sub_eq_zero_of_repeat {i j : Fin points.length} (hij : i ≠ j)
    (heq : abscissa points i = abscissa points j) :
    ∏ j ∈ Finset.univ.erase i, (abscissa points i - abscissa points j) = 0 := by
  refine Finset.prod_eq_zero (Finset.mem_erase.mpr ⟨hij.symm, Finset.mem_univ j⟩) ?_
  rw [heq, sub_self]

/-- **Points with a repeated first coordinate panic.** -/
theorem gf256LagrangeInterpolateZero_of_repeat (h : ¬ (points.map Prod.fst).Nodup) :
    gf256LagrangeInterpolateZero points
      = Checked.panicWith "Cannot invert 0 in GF(256)" := by
  obtain ⟨i, j, heq, hij⟩ : ∃ i j, abscissa points i = abscissa points j ∧ i ≠ j := by
    simpa [Function.Injective] using mt nodup_of_abscissa_injective h
  rw [gf256LagrangeInterpolateZero, Checked.panicWith]
  apply List.foldlM_panics
  · intro p hp result
    obtain ⟨k, rfl⟩ := exists_of_mem_zipIdx hp
    rw [interpolateStep, lagrangeTerm_eq_ite]
    split_ifs
    · exact .inr rfl
    · exact .inl ⟨_, rfl⟩
  · refine ⟨(points[i], i), ?_, fun result => ?_⟩
    · exact List.mk_mem_zipIdx_iff_getElem?.mpr (List.getElem?_eq_getElem i.2)
    · rw [interpolateStep, lagrangeTerm_eq_ite, if_pos (prod_sub_eq_zero_of_repeat hij heq)]
      rfl

end

/-! ## Lists of shares -/

/-- Byte by byte, the secret and the shares lie on a polynomial of degree below the number of
shares: the secret at zero, and each share at its index. -/
def Interpolates (shares : List Share) (secret : List UInt8) : Prop :=
  ∀ k < secret.length, ∃ f : GF256[X], f.degree < shares.length ∧ f.eval 0 = ⟨secret.getD k 0⟩ ∧
    ∀ s ∈ shares, f.eval ⟨s.id⟩ = ⟨s.data.getD k 0⟩

section

variable {shares : List Share} {n : ℕ}

/-- One byte of the shares. -/
theorem interpolate_sharePoints_eq_ok (hids : (shares.map Share.id).Nodup) (k : ℕ) {c : UInt8} :
    gf256LagrangeInterpolateZero (sharePoints shares k) = .ok c ↔
      ∃ f : GF256[X], f.degree < shares.length ∧ f.eval 0 = ⟨c⟩ ∧
        ∀ s ∈ shares, f.eval ⟨s.id⟩ = ⟨s.data.getD k 0⟩ := by
  rw [gf256LagrangeInterpolateZero_eq_ok (by rwa [map_fst_sharePoints])]
  simp only [sharePoints, List.length_map, List.forall_mem_map]

/-- Different shares are interpolated at every byte, and the bytes are the secret. -/
theorem exists_reconstructSecret (hne : shares ≠ []) (hlen : ∀ s ∈ shares, s.data.length = n)
    (hids : (shares.map Share.id).Nodup) :
    ∃ value : ℕ → UInt8,
      (∀ k, gf256LagrangeInterpolateZero (sharePoints shares k) = .ok (value k)) ∧
        reconstructSecret shares = .ok ((List.range n).map value) := by
  have hbyte : ∀ k, ∃ c, gf256LagrangeInterpolateZero (sharePoints shares k) = .ok c := fun k =>
    ⟨_, gf256LagrangeInterpolateZero_eq (by rwa [map_fst_sharePoints])⟩
  choose value hvalue using hbyte
  refine ⟨value, hvalue, ?_⟩
  rw [reconstructSecret_of_length hne hlen]
  exact List.mapM_eq_pure fun k _ => hvalue k

theorem reconstructSecret_returns (hne : shares ≠ []) (hlen : ∀ s ∈ shares, s.data.length = n)
    (hids : (shares.map Share.id).Nodup) :
    ∃ secret, reconstructSecret shares = .ok secret ∧ secret.length = n := by
  obtain ⟨value, -, hsecret⟩ := exists_reconstructSecret hne hlen hids
  exact ⟨_, hsecret, by simp⟩

/-- **Different shares of one length** give a secret of that length, the one they interpolate. -/
theorem reconstructSecret_eq_ok (hne : shares ≠ []) (hlen : ∀ s ∈ shares, s.data.length = n)
    (hids : (shares.map Share.id).Nodup) {secret : List UInt8} :
    reconstructSecret shares = .ok secret ↔ secret.length = n ∧ Interpolates shares secret := by
  obtain ⟨value, hvalue, hok⟩ := exists_reconstructSecret hne hlen hids
  have hget : ∀ k c, value k = c ↔ ∃ f : GF256[X], f.degree < shares.length ∧ f.eval 0 = ⟨c⟩ ∧
      ∀ s ∈ shares, f.eval ⟨s.id⟩ = ⟨s.data.getD k 0⟩ := fun k c => by
    rw [← interpolate_sharePoints_eq_ok hids, hvalue, Except.ok.injEq]
  rw [hok, Except.ok.injEq]
  constructor
  · rintro rfl
    rw [Interpolates, List.length_map, List.length_range]
    exact ⟨rfl, fun k hk => (hget k _).mp (by simp [hk])⟩
  · rintro ⟨rfl, h⟩
    refine List.ext_getElem (by simp) fun k _ hk => ?_
    rw [List.getElem_map, List.getElem_range, (hget k _).mpr (h k hk), List.getD_eq_getElem _ _ hk]

/-- **One share alone** is taken for the secret. -/
theorem reconstructSecret_singleton (share : Share) :
    reconstructSecret [share] = .ok share.data := by
  refine (reconstructSecret_eq_ok (by simp) ?_ (by simp)).mpr ⟨rfl, fun k _ => ?_⟩
  · simp
  · refine ⟨C ⟨share.data.getD k 0⟩, ?_, eval_C, ?_⟩
    · exact degree_C_le.trans_lt (by norm_num)
    · simp

/-- **A share twice is a panic**, if there is a byte to interpolate. -/
theorem reconstructSecret_of_repeat (hlen : ∀ s ∈ shares, s.data.length = n + 1)
    (hids : ¬ (shares.map Share.id).Nodup) :
    reconstructSecret shares = Checked.panicWith "Cannot invert 0 in GF(256)" := by
  have hne : shares ≠ [] := by
    rintro rfl
    exact hids List.nodup_nil
  rw [reconstructSecret_of_length hne hlen, List.range_succ_eq_map, List.mapM_cons,
    gf256LagrangeInterpolateZero_of_repeat (by rwa [map_fst_sharePoints])]
  rfl

end

/-! ## A corrupted share

The secret's byte is a sum of the shares' bytes with weights, and none of the weights is zero. -/

/-- The share with another byte `k`. -/
def Share.corrupt (k : ℕ) (b : UInt8) (share : Share) : Share :=
  { share with data := share.data.set k b }

/-- Shares that determine a secret: there are some, of one length, with different indices, and none
has the index zero, at which the secret itself stands. -/
structure WellFormed (shares : List Share) : Prop where
  nonempty : shares ≠ []
  nonzero : ∀ s ∈ shares, s.id ≠ 0
  nodup : (shares.map Share.id).Nodup
  same_length : ∀ s ∈ shares, ∀ t ∈ shares, s.data.length = t.data.length

section

variable {before after : List Share} {share : Share} {j k : ℕ} {a b : UInt8}

theorem WellFormed.length_eq (h : WellFormed (before ++ share :: after)) :
    ∀ s ∈ before ++ share :: after, s.data.length = share.data.length := fun s hs =>
  h.same_length s hs share (List.mem_append_right before List.mem_cons_self)

/-- The shares stay well formed. -/
theorem WellFormed.corrupt (h : WellFormed (before ++ share :: after)) (k : ℕ) (b : UInt8) :
    WellFormed (before ++ share.corrupt k b :: after) := by
  have hnonzero := h.nonzero
  have hsame := h.length_eq
  rw [List.forall_mem_append, List.forall_mem_cons] at hnonzero hsame
  have hsame' : ∀ s ∈ before ++ share.corrupt k b :: after,
      s.data.length = share.data.length := by
    rw [List.forall_mem_append, List.forall_mem_cons]
    exact ⟨hsame.1, List.length_set, hsame.2.2⟩
  exact
    { nonempty := by simp
      nonzero := by
        rw [List.forall_mem_append, List.forall_mem_cons]
        exact hnonzero
      nodup := by simpa [Share.corrupt] using h.nodup
      same_length := fun s hs t ht => (hsame' s hs).trans (hsame' t ht).symm }

/-- The other bytes are interpolated from the same points. -/
theorem sharePoints_corrupt (hjk : j ≠ k) :
    sharePoints (before ++ share.corrupt k b :: after) j
      = sharePoints (before ++ share :: after) j := by
  have hget : (share.data.set k b).getD j 0 = share.data.getD j 0 := by
    rw [List.getD_eq_getElem?_getD, List.getElem?_set_ne hjk.symm, List.getD_eq_getElem?_getD]
  simp only [sharePoints, Share.corrupt, List.map_append, List.map_cons, hget]

/-- **One point moved moves the value at zero.** -/
theorem interpolate_corrupt_ne (h : WellFormed (before ++ share :: after))
    (hbyte : (share.corrupt k b).data.getD k 0 ≠ share.data.getD k 0) {c : UInt8}
    (hc : gf256LagrangeInterpolateZero (sharePoints (before ++ share :: after) k) = .ok c) :
    gf256LagrangeInterpolateZero (sharePoints (before ++ share.corrupt k b :: after) k)
      ≠ .ok c := by
  intro hc'
  have hids := h.nodup
  obtain ⟨f, hdeg, hzero, hf⟩ := (interpolate_sharePoints_eq_ok hids k).mp hc
  obtain ⟨f', hdeg', hzero', hf'⟩ :=
    (interpolate_sharePoints_eq_ok (h.corrupt k b).nodup k).mp hc'
  -- the two polynomials agree at zero and at the other shares, so they are one polynomial
  let others : Finset GF256 := ((before ++ after).map fun s => (⟨s.id⟩ : GF256)).toFinset
  have hsub : ∀ s : Share, (before ++ after).Sublist (before ++ s :: after) := fun s =>
    .append (.refl before) (List.sublist_cons_self s after)
  have hcard : others.card + 1 = (before ++ share :: after).length := by
    have hnodup : ((before ++ after).map fun s => (⟨s.id⟩ : GF256)).Nodup := by
      have hbytes := (hids.sublist ((hsub share).map Share.id)).map GF256.equivByte.symm.injective
      rwa [List.map_map] at hbytes
    rw [List.toFinset_card_of_nodup hnodup, List.length_map, List.length_append,
      List.length_append, List.length_cons, Nat.add_assoc]
  have hothers : (0 : GF256) ∉ others := by
    intro hmem
    obtain ⟨s, hs, hs0⟩ := List.mem_map.mp (List.mem_toFinset.mp hmem)
    exact h.nonzero s ((hsub share).subset hs) (congrArg GF256.byte hs0)
  have hagree : f = f' := by
    refine Shamir.eq_of_eval_zero_eq hothers (by rwa [hcard]) ?_ (hzero.trans hzero'.symm) ?_
    · rw [hcard]
      simpa using hdeg'
    · intro x hx
      obtain ⟨s, hs, rfl⟩ := List.mem_map.mp (List.mem_toFinset.mp hx)
      rw [hf s ((hsub share).subset hs), hf' s ((hsub _).subset hs)]
  have hshare := hf share (by simp)
  have hshare' := hf' (share.corrupt k b) (by simp)
  rw [← hagree] at hshare'
  exact hbyte (congrArg GF256.byte (hshare'.symm.trans hshare))

/-- **A corrupted share is never masked.**  Another byte `k` in one share, of shares that determine
a secret, gives another byte `k` of the secret, and leaves its other bytes. -/
theorem corruption_visible (h : WellFormed (before ++ share :: after))
    (ha : share.data[k]? = some a) (hb : b ≠ a) :
    ∃ secret secret', reconstructSecret (before ++ share :: after) = .ok secret ∧
      reconstructSecret (before ++ share.corrupt k b :: after) = .ok secret' ∧
      secret'.length = secret.length ∧ secret'[k]? ≠ secret[k]? ∧
      ∀ j ≠ k, secret'[j]? = secret[j]? := by
  have h' := h.corrupt k b
  obtain ⟨hk, ha⟩ := List.getElem?_eq_some_iff.mp ha
  obtain ⟨value, hvalue, hsecret⟩ := exists_reconstructSecret h.nonempty h.length_eq h.nodup
  obtain ⟨value', hvalue', hsecret'⟩ := exists_reconstructSecret h'.nonempty h'.length_eq h'.nodup
  have hlength : (share.corrupt k b).data.length = share.data.length := List.length_set
  have hne : value k ≠ value' k := by
    have hbyte : (share.corrupt k b).data.getD k 0 ≠ share.data.getD k 0 := by
      simpa [Share.corrupt, hk, ha] using hb
    intro heq
    exact interpolate_corrupt_ne h hbyte (hvalue k) (heq ▸ hvalue' k)
  have hsame : ∀ j ≠ k, value j = value' j := fun j hjk => by
    have hpoints := hvalue' j
    rw [sharePoints_corrupt hjk, hvalue j] at hpoints
    exact Except.ok.inj hpoints
  refine ⟨_, _, hsecret, hsecret', by simp [hlength], ?_, fun j hjk => ?_⟩
  · simpa [hlength, hk] using hne.symm
  · rw [List.getElem?_map, List.getElem?_map, hlength]
    by_cases hj : j < share.data.length
    · simp [hj, hsame j hjk]
    · simp [hj]

end

/-- One bit of the first of two shares. -/
theorem corruption_visible_two_shares :
    ∃ secret secret', reconstructSecret ([] ++ ⟨3, [37, 13]⟩ :: [⟨1, [47, 1]⟩]) = .ok secret ∧
      reconstructSecret ([] ++ Share.corrupt 0 36 ⟨3, [37, 13]⟩ :: [⟨1, [47, 1]⟩]) = .ok secret' ∧
      secret'.length = secret.length ∧ secret'[0]? ≠ secret[0]? ∧
      ∀ j ≠ 0, secret'[j]? = secret[j]? :=
  corruption_visible ⟨by decide, by decide, by decide, by decide⟩ rfl (by decide)

/-! ## Some shares of a split -/

namespace IsSharing

variable {config : SharingConfig} {secret : List UInt8} {out shares : List Share}

/-- **Different shares of a split reconstruct**, however few. -/
theorem reconstructSecret_returns (h : IsSharing config secret out) (hne : shares ≠ [])
    (hsub : shares ⊆ out) (hnodup : shares.Nodup) :
    ∃ bytes, PqcGateway.reconstructSecret shares = .ok bytes ∧ bytes.length = secret.length :=
  PqcGateway.reconstructSecret_returns hne (fun _ hs => h.length_data (hsub hs))
    (h.nodup_map_id hsub hnodup)

/-- **They reconstruct the secret** exactly when there are enough of them, or they interpolate it
all the same. -/
theorem reconstructSecret_iff (h : IsSharing config secret out) (hne : shares ≠ [])
    (hsub : shares ⊆ out) (hnodup : shares.Nodup) :
    PqcGateway.reconstructSecret shares = .ok secret ↔
      config.threshold.toNat ≤ shares.length ∨ Interpolates shares secret := by
  have hok : PqcGateway.reconstructSecret shares = .ok secret ↔ _ :=
    reconstructSecret_eq_ok hne (fun _ hs => h.length_data (hsub hs)) (h.nodup_map_id hsub hnodup)
  constructor
  · exact fun hsecret => .inr (hok.mp hsecret).2
  · rintro (henough | hinterpolates)
    · exact h.reconstructSecret hsub hnodup henough
    · exact hok.mpr ⟨rfl, hinterpolates⟩

end IsSharing

/-! ## Lists of recovery codes -/

/-- The shape of the codes is checked: recovering from them does not panic, succeeds only if their
shares are well formed, and is an error otherwise. -/
structure CodesChecked (codes : List String) (shares : List Share) : Prop where
  no_panic : ∃ result : Except String (List UInt8), (recoverFromCodes codes).run = .ok result
  ok_only : ∀ secret, recoverFromCodes codes = pure secret → WellFormed shares
  else_error : ¬ WellFormed shares → ∃ e, recoverFromCodes codes = throw e

/-- Codes that parse are recovered from as their shares are. -/
theorem recoverFromCodes_of_parse {codes : List String} {shares : List Share}
    (hparse : List.Forall₂ (fun code share => parseRecoveryCode code = pure share) codes shares) :
    recoverFromCodes codes = liftM (reconstructSecret shares) := by
  rw [recoverFromCodes, List.mapM_of_forall₂ hparse, pure_bind]

/-- **No list of codes is refused for its shape.**  Of codes that parse, exactly the well-formed
lists are treated as they should be; the others panic, or give a secret all the same. -/
theorem codes_checked_iff {codes : List String} {shares : List Share}
    (hparse : List.Forall₂ (fun code share => parseRecoveryCode code = pure share) codes shares) :
    CodesChecked codes shares ↔ WellFormed shares := by
  have hcodes := recoverFromCodes_of_parse hparse
  constructor
  · intro h
    by_contra hmalformed
    obtain ⟨e, he⟩ := h.else_error hmalformed
    exact Fallible.liftM_ne_throw _ e (hcodes.symm.trans he)
  · intro h
    obtain ⟨first, hfirst⟩ := List.exists_mem_of_ne_nil shares h.nonempty
    obtain ⟨secret, hsecret, -⟩ := reconstructSecret_returns h.nonempty
      (fun s hs => h.same_length s hs first hfirst) h.nodup
    rw [hsecret, Fallible.liftM_ok] at hcodes
    exact
      { no_panic := ⟨.ok secret, congrArg ExceptT.run hcodes⟩
        ok_only := fun _ _ => h
        else_error := fun hmalformed => absurd h hmalformed }

/-- Two shares of three, out of order. -/
theorem codes_checked_two_of_three :
    CodesChecked ["03-250d", "01-2f01"] [⟨3, [37, 13]⟩, ⟨1, [47, 1]⟩] := by
  have hparse : List.Forall₂ (fun code share => parseRecoveryCode code = pure share)
      ["03-250d", "01-2f01"] [⟨3, [37, 13]⟩, ⟨1, [47, 1]⟩] := .cons rfl (.cons rfl .nil)
  refine (codes_checked_iff hparse).mpr ⟨by decide, ?_, by decide, ?_⟩
  · decide
  · decide

/-- **Malformed lists of codes.**  No code at all, one code twice and codes of two lengths panic,
and a code with the index zero dictates the secret. -/
theorem malformed_codes_panic :
    (recoverFromCodes []).run = Checked.panicWith "Need at least one share" ∧
    (recoverFromCodes ["01-2a", "01-2a"]).run
      = Checked.panicWith "Cannot invert 0 in GF(256)" ∧
    (recoverFromCodes ["01-2a", "02-2a2a"]).run
      = Checked.panicWith "All shares must have the same data length" ∧
    recoverFromCodes ["00-2a"] = pure [42] ∧
    ¬ CodesChecked ["01-2a", "01-2a"] [⟨1, [42]⟩, ⟨1, [42]⟩] := by
  refine ⟨rfl, rfl, rfl, rfl, fun h => ?_⟩
  obtain ⟨result, hresult⟩ := h.no_panic
  cases hresult

end PqcGateway
