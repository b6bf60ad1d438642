import MarkdownModule.Frontmatter
import MarkdownModule.Proofs.Json.RoundTrip
import MarkdownModule.Proofs.Outcome
import MarkdownModule.Yaml.Load

/-!
# The values of a YAML text are well formed

* `Yaml.Scalar.wellFormed_ofPlain`   the value of a plain scalar
* `Yaml.wellFormed_value`            the value of a node
* `Yaml.wellFormed_load`             the value of a text
* `Frontmatter.wellFormed_extract`   the frontmatter of a document
-/

namespace MarkdownModule

namespace Yaml

/-! ## scalars -/

namespace Scalar

/-- an integer that fits into 64 bits, a float in canonical form, or no number -/
def WellFormed : Scalar → Prop
  | .int n => Json.fitsWord n = true
  | .float x => x.Canonical
  | _ => True

theorem wellFormed_toJson {s : Scalar} (h : s.WellFormed) : s.toJson.WellFormed := by
  cases s with
  | null => exact .null
  | bool b => exact .bool b
  | int n => exact .number h
  | float x => exact .number h
  | notFinite => exact .null
  | text t => exact .string t

theorem fitsWord_of_integer? {s : Text} {n : Int} (h : integer? s = some (.ok n)) :
    Json.fitsWord n = true := by
  unfold integer? at h
  unfold Json.fitsWord
  have hpos : 0 < twoTo 64 := pow_pos (by decide) 64
  generalize twoTo 64 = high at *
  generalize twoTo 63 = low at *
  rw [Bool.and_eq_true, decide_eq_true_iff, decide_eq_true_iff]
  split at h
  · split at h
    · obtain rfl := Except.ok.inj (Option.some.inj h)
      omega
    · split at h <;> exact nomatch h
  · split at h
    · obtain rfl := Except.ok.inj (Option.some.inj h)
      omega
    · split at h <;> exact nomatch h
  · exact nomatch h

theorem canonical_of_finite? {s : Text} {x : Binary64} (h : finite? s = some x) :
    x.Canonical := by
  unfold finite? at h
  split at h
  all_goals
    obtain ⟨d, -, hd⟩ := Option.bind_eq_some_iff.1 h
    exact Binary64.canonical_of_ofDecimal hd

theorem wellFormed_float? {s : Text} {v : Scalar} (h : float? s = some v) : v.WellFormed := by
  unfold float? at h
  dsimp only at h
  split at h
  all_goals
    split at h
    · exact Option.some.inj h ▸ trivial
    · split at h
      · exact nomatch h
      · obtain ⟨x, hx, rfl⟩ := Option.map_eq_some_iff.1 h
        exact canonical_of_finite? hx

theorem wellFormed_integer {r : Except Error Int} {v : Scalar} {s : Text}
    (hi : integer? s = some r) (h : r.map .int = .ok v) : v.WellFormed := by
  obtain ⟨n, rfl, rfl⟩ := ok_of_map h
  exact fitsWord_of_integer? hi

theorem wellFormed_ofPlain {s : Text} {v : Scalar} (h : ofPlain s = .ok v) : v.WellFormed := by
  unfold ofPlain at h
  split at h
  · exact Except.ok.inj h ▸ trivial
  · split at h
    · exact Except.ok.inj h ▸ trivial
    · split at h
      · rename_i hi
        exact wellFormed_integer hi h
      · split at h
        · exact Except.ok.inj h ▸ trivial
        · cases hf : float? s with
          | none => rw [hf] at h; exact Except.ok.inj h ▸ trivial
          | some x => rw [hf] at h; exact Except.ok.inj h ▸ wellFormed_float? hf

theorem wellFormed_ofTagged {tag s : Text} {v : Scalar} (h : ofTagged tag s = .ok v) :
    v.WellFormed := by
  unfold ofTagged at h
  split at h
  · obtain ⟨b, -, rfl⟩ := ok_of_map h
    exact trivial
  · split at h
    · split at h
      · rename_i hi
        exact wellFormed_integer hi h
      · exact nomatch h
    · split at h
      · unfold expected at h
        split at h
        · rename_i hf
          exact Except.ok.inj h ▸ wellFormed_float? hf
        · exact nomatch h
      · split at h
        · split at h
          · exact Except.ok.inj h ▸ trivial
          · exact nomatch h
        · exact Except.ok.inj h ▸ trivial

end Scalar

theorem wellFormed_scalarValue {tag : Option Text} {text : Text} {plain : Bool} {v : Scalar}
    (h : scalarValue tag text plain = .ok v) : v.WellFormed := by
  unfold scalarValue at h
  split at h
  · split at h
    · exact Scalar.wellFormed_ofPlain h
    · exact Except.ok.inj h ▸ trivial
  · split at h
    · exact Scalar.wellFormed_ofPlain h
    · exact Except.ok.inj h ▸ trivial
  · exact Scalar.wellFormed_ofTagged h

theorem wellFormed_wrapTag (tag : Option Text) {v : Json.Value} (h : v.WellFormed) :
    (wrapTag tag v).WellFormed := by
  unfold wrapTag
  split
  · exact .object (List.nodup_singleton _) fun m hm => List.mem_singleton.1 hm ▸ h
  · exact h

/-! ## collections -/

/-- the keys of the members are different, and their values are well formed -/
structure Members.WellFormed (m : Members) : Prop where
  keys : (m.members.map Prod.fst).Nodup
  values : ∀ e ∈ m.members, e.2.WellFormed

theorem nodup_put {key : Text} {v : Json.Value} {ms : List (Text × Json.Value)}
    (h : (ms.map Prod.fst).Nodup) : ((Json.put key v ms).map Prod.fst).Nodup := by
  rw [Json.keys_put]
  split
  · exact h
  · rename_i hk
    rw [List.nodup_append]
    exact ⟨h, List.nodup_singleton key, fun a ha b hb e => hk (List.mem_singleton.1 hb ▸ e ▸ ha)⟩

theorem mem_put {key : Text} {v : Json.Value} {ms : List (Text × Json.Value)}
    {m : Text × Json.Value} (h : m ∈ Json.put key v ms) : m.2 = v ∨ m ∈ ms := by
  induction ms with
  | nil => exact .inl (congrArg Prod.snd (List.mem_singleton.1 h))
  | cons e ms ih =>
    rw [Json.put] at h
    split at h
    · rcases List.mem_cons.1 h with rfl | h
      · exact .inl rfl
      · exact .inr (List.mem_cons_of_mem _ h)
    · rcases List.mem_cons.1 h with rfl | h
      · exact .inr List.mem_cons_self
      · exact (ih h).imp_right (List.mem_cons_of_mem _)

theorem Members.WellFormed.add {m n : Members} (hm : m.WellFormed) {k : Scalar} {v : Json.Value}
    (hv : v.WellFormed) (h : m.add k v = .ok n) : n.WellFormed := by
  unfold Members.add at h
  split at h
  · exact nomatch h
  · obtain ⟨key, -, h⟩ := ok_of_bind h
    obtain rfl := Except.ok.inj h
    refine ⟨nodup_put hm.keys, fun e he => ?_⟩
    rcases mem_put he with e' | he
    · exact e' ▸ hv
    · exact hm.values e he

section
variable {a : Anchors} {read : Nat → Resolved → Except Error (Json.Value × Nat)}
  (hread : ∀ {uses n v u}, read uses n = .ok (v, u) → v.WellFormed)
include hread

theorem wellFormed_readItems {ns : List Resolved} {uses u : Nat} {vs : List Json.Value}
    (h : readItems read uses ns = .ok (vs, u)) : ∀ v ∈ vs, v.WellFormed := by
  induction ns generalizing uses u vs with
  | nil =>
    rw [readItems] at h
    obtain rfl := (Prod.mk.inj (Except.ok.inj h)).1
    exact fun v hv => nomatch hv
  | cons n ns ih =>
    rw [readItems] at h
    obtain ⟨⟨v, u1⟩, hv, h⟩ := ok_of_bind h
    obtain ⟨⟨ws, u2⟩, hws, h⟩ := ok_of_bind h
    obtain rfl := (Prod.mk.inj (Except.ok.inj h)).1
    exact List.forall_mem_cons.2 ⟨hread hv, ih hws⟩

theorem wellFormed_readMembers {ns : List (Resolved × Resolved)} {uses u : Nat} {m n : Members}
    (hm : m.WellFormed) (h : readMembers a read uses m ns = .ok (n, u)) : n.WellFormed := by
  induction ns generalizing uses m with
  | nil =>
    rw [readMembers] at h
    exact (Prod.mk.inj (Except.ok.inj h)).1 ▸ hm
  | cons p ns ih =>
    rw [readMembers] at h
    obtain ⟨⟨k, u1⟩, -, h⟩ := ok_of_bind h
    obtain ⟨⟨v, u2⟩, hv, h⟩ := ok_of_bind h
    obtain ⟨m', hadd, h⟩ := ok_of_bind h
    exact ih (hm.add (hread hv) hadd) h

end

theorem wellFormed_scalarNode {tag : Option Text} {text : Text} {plain : Bool} {v : Json.Value}
    (h : scalarNode tag text plain = .ok v) : v.WellFormed := by
  obtain ⟨s, hs, rfl⟩ := ok_of_map h
  exact wellFormed_wrapTag _ (Scalar.wellFormed_toJson (wellFormed_scalarValue hs))

/-- **The value of a node is well formed.** -/
theorem wellFormed_value {a : Anchors} {depth uses u : Nat} {n : Resolved} {v : Json.Value}
    (h : value a depth uses n = .ok (v, u)) : v.WellFormed := by
  induction depth generalizing uses u n v with
  | zero =>
    rw [value] at h
    obtain ⟨⟨n', u1⟩, -, h⟩ := ok_of_bind h
    cases n' with
    | scalar tag text plain =>
      obtain ⟨w, hw, h⟩ := ok_of_bind h
      obtain rfl := (Prod.mk.inj (Except.ok.inj h)).1
      exact wellFormed_scalarNode hw
    | sequence tag items => exact nomatch h
    | mapping tag pairs => exact nomatch h
    | «alias» number => exact nomatch h
  | succ depth ih =>
    rw [value] at h
    obtain ⟨⟨n', u1⟩, -, h⟩ := ok_of_bind h
    cases n' with
    | scalar tag text plain =>
      obtain ⟨w, hw, h⟩ := ok_of_bind h
      obtain rfl := (Prod.mk.inj (Except.ok.inj h)).1
      exact wellFormed_scalarNode hw
    | sequence tag items =>
      obtain ⟨⟨vs, u2⟩, hvs, h⟩ := ok_of_bind h
      obtain rfl := (Prod.mk.inj (Except.ok.inj h)).1
      exact wellFormed_wrapTag _ (.array (wellFormed_readItems ih hvs))
    | mapping tag pairs =>
      obtain ⟨⟨ms, u2⟩, hms, h⟩ := ok_of_bind h
      obtain rfl := (Prod.mk.inj (Except.ok.inj h)).1
      have hempty : ({} : Members).WellFormed := ⟨List.nodup_nil, fun e he => nomatch he⟩
      have hm := wellFormed_readMembers ih hempty hms
      exact wellFormed_wrapTag _ (.object hm.keys hm.values)
    | «alias» number => exact nomatch h

/-- **The value of a text is well formed.** -/
theorem wellFormed_load {s : Text} {v : Json.Value} (h : load s = .ok v) : v.WellFormed := by
  unfold load at h
  obtain ⟨ts, -, h⟩ := ok_of_bind h
  obtain ⟨n, -, h⟩ := ok_of_bind h
  obtain ⟨⟨r, a⟩, -, h⟩ := ok_of_bind h
  obtain ⟨⟨w, u⟩, hw, h⟩ := ok_of_bind h
  obtain rfl := Except.ok.inj h
  exact wellFormed_value hw

end Yaml

namespace Frontmatter

/-- **The frontmatter of a document is a well-formed object.** -/
theorem wellFormed_extract {source : Text} {e : Extraction} (h : extract source = .ok e) :
    e.attributes.WellFormed := by
  have hempty : Json.Value.emptyObject.WellFormed :=
    .object List.nodup_nil fun m hm => nomatch hm
  unfold extract at h
  split at h
  · exact Except.ok.inj h ▸ hempty
  · exact nomatch h
  · obtain ⟨v, hv, rfl⟩ := ok_of_map h
    unfold readBlock at hv
    split at hv
    · exact Except.ok.inj hv ▸ hempty
    · split at hv
      · exact nomatch hv
      · exact Except.ok.inj hv ▸ hempty
      · rename_i hload
        exact Except.ok.inj hv ▸ Yaml.wellFormed_load hload
      · exact nomatch hv

end Frontmatter

end MarkdownModule
