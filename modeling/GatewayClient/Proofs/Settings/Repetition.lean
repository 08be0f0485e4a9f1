import GatewayClient.Proofs.Settings.Layers
import GatewayClient.Proofs.Settings.Merging

/-!
# Laying a layer on twice

A layer that has been laid on already changes nothing when it is laid on again (`merge_again`). The
induction is on the layer, with any value below it. Under a key for which the layer gives a value
there stands, after the first time, what was there with that value laid over it, and the induction
takes care of that; or the value itself, taken over with all that is in it, and a value laid over
itself comes out as it is (`merge_self`). The entries `null` of such a value do not count the second
time, and they stay because they are there already.
-/

namespace GatewayClient

namespace Json

variable {below entries : List (String × Json)} {key : String} {source target value : Json}

/-! ## Over itself -/

theorem mergeEntries_over_itself (h : Ordered entries)
    (heach : ∀ e ∈ entries, merge e.2 e.2 = e.2) : mergeEntries entries entries = entries := by
  refine h.mergeEntries.ext h fun key => ?_
  rw [lookup_mergeEntries h]
  cases hgiven : given key entries with
  | none => rfl
  | some value =>
    have hl := (given_eq_some hgiven).1
    rw [hl]
    exact congrArg some (heach _ (mem_of_lookup hl))

/-- A value laid over itself comes out as it is. -/
theorem merge_self (h : Canonical value) : merge value value = value := by
  induction h with
  | obj order each ih => rw [merge_obj, mergeEntries_over_itself order ih]
  | null | bool | num | str | arr => exact merge_replaced (by simp)

/-! ## Again -/

/-- Under one key. -/
theorem merge_overlay {under : Option Json} (hvalue : Canonical value)
    (hunder : ∀ v, under = some v → merge (merge v value) value = merge v value) :
    merge (overlay under value) value = overlay under value := by
  cases under with
  | none => exact merge_self hvalue
  | some v => exact hunder v rfl

theorem mergeEntries_again (hbelow : Ordered below) (h : Canonical (.obj entries))
    (heach : ∀ key v value, lookup key below = some v → lookup key entries = some value →
      merge (merge v value) value = merge v value) :
    mergeEntries (mergeEntries below entries) entries = mergeEntries below entries := by
  refine hbelow.mergeEntries.mergeEntries.ext hbelow.mergeEntries fun key => ?_
  rw [lookup_mergeEntries h.ordered, lookup_mergeEntries h.ordered]
  cases hgiven : given key entries with
  | none => rfl
  | some value =>
    have hl := (given_eq_some hgiven).1
    exact congrArg some (merge_overlay (h.at hl) fun v hv => heach key v value hv hl)

theorem merge_again_of_replaced (hnot : ∀ below above, target = .obj below → source ≠ .obj above)
    (hsource : Canonical source) : merge (merge target source) source = merge target source := by
  rw [merge_replaced hnot, merge_self hsource]

/-- A layer laid on again changes nothing. -/
theorem merge_again (htarget : Canonical target) (hsource : Canonical source) :
    merge (merge target source) source = merge target source := by
  induction hsource generalizing target with
  | @obj entries order each ih =>
    cases htarget with
    | @obj below horder hbelow =>
      have heach : ∀ key v value, lookup key below = some v → lookup key entries = some value →
          merge (merge v value) value = merge v value := fun key v value hv hl =>
        ih _ (mem_of_lookup hl) (hbelow _ (mem_of_lookup hv))
      rw [merge_obj, merge_obj, mergeEntries_again horder (.obj order each) heach]
    | null | bool | num | str | arr => exact merge_again_of_replaced (by simp) (.obj order each)
  | null => exact merge_again_of_replaced (by simp) .null
  | bool b => exact merge_again_of_replaced (by simp) (.bool b)
  | num n => exact merge_again_of_replaced (by simp) (.num n)
  | str s => exact merge_again_of_replaced (by simp) (.str s)
  | arr each => exact merge_again_of_replaced (by simp) (.arr each)

end Json

/-! ## Settings files -/

open Json

theorem LoggingSettings.canonical_toJson (l : LoggingSettings) : Canonical l.toJson := by
  refine .obj l.ordered_toJson ?_
  simp only [List.forall_mem_cons]
  exact ⟨.bool _, .str _, List.forall_mem_nil _⟩

theorem Json.canonical_ofDouble (x : Binary64) : Canonical (.ofDouble x) := by
  unfold ofDouble
  split
  · exact .num _
  · exact .null

theorem Backoff.canonical_toJson (b : Backoff) : Canonical b.toJson := by
  refine .obj b.ordered_toJson ?_
  simp only [List.forall_mem_cons]
  exact ⟨.num _, canonical_ofDouble _, .num _, List.forall_mem_nil _⟩

theorem ProxyCredentials.canonical_toJson (c : ProxyCredentials) : Canonical c.toJson := by
  have hkeys : ["password", "username"].Pairwise (· < ·) := by decide
  refine .obj (.of_keys hkeys) ?_
  simp only [List.forall_mem_cons]
  exact ⟨.str _, .str _, List.forall_mem_nil _⟩

/-- An entry that a value may lack. -/
theorem Json.canonical_optional {α : Type} {key : String} {encode : α → Json}
    (h : ∀ a, Canonical (encode a)) (o : Option α) :
    ∀ e ∈ (o.map fun a => (key, encode a)).toList, Canonical e.2 := by
  cases o with
  | none => exact List.forall_mem_nil _
  | some a => exact List.forall_mem_singleton.mpr (h a)

theorem ProxyConfig.canonical_toJson (p : ProxyConfig) : Canonical p.toJson := by
  refine .obj p.ordered_toJson ?_
  simp only [List.forall_mem_append, List.forall_mem_singleton]
  exact ⟨⟨canonical_optional ProxyCredentials.canonical_toJson _, .str _⟩,
    canonical_optional .str _⟩

theorem ClientSettings.canonical_toJson (s : ClientSettings) : Canonical s.toJson := by
  refine .obj s.ordered_toJson ?_
  simp only [List.forall_mem_append, List.forall_mem_cons]
  exact ⟨⟨⟨.str _, .num _, s.discovery.canonical_toJson, s.logging.canonical_toJson,
    s.proxy.canonical_toJson, List.forall_mem_nil _⟩, canonical_optional .str _⟩,
    .num _, .bool _, .bool _, List.forall_mem_nil _⟩

/-- **A layer counts once.** What has been laid over a value changes nothing when it is laid over
the outcome again, `null`s at any depth included; a value laid over itself comes out as it is, and
so does an object under an empty one. In particular a settings file that is applied to settings
twice comes to what it comes to when applied once. -/
theorem Json.merge_counts_once {target source : Json} (htarget : Canonical target)
    (hsource : Canonical source) :
    merge (merge target source) source = merge target source ∧ merge source source = source ∧
      (∀ entries, target = .obj entries → merge target (.obj []) = target) ∧
      ∀ (s : ClientSettings) (text : String) (file : Json), parse text = .ok file →
        merge (merge s.toJson file) file = merge s.toJson file := by
  refine ⟨merge_again htarget hsource, merge_self hsource, ?_, ?_⟩
  · rintro entries rfl
    rw [merge_obj, mergeEntries_nil]
  · intro s text file hparse
    exact merge_again s.canonical_toJson (parse_canonical hparse)

theorem Json.merge_counts_once_layeredText :
    Canonical (ClientSettings.toJson {}) ∧ Canonical (.obj ClientSettings.layeredEntries)
      ∧ parse ClientSettings.layeredText = .ok (.obj ClientSettings.layeredEntries)
      ∧ merge (merge (ClientSettings.toJson {}) (.obj ClientSettings.layeredEntries))
          (.obj ClientSettings.layeredEntries)
        = merge (ClientSettings.toJson {}) (.obj ClientSettings.layeredEntries)
      ∧ merge (.obj ClientSettings.layeredEntries) (.obj ClientSettings.layeredEntries)
        = .obj ClientSettings.layeredEntries
      ∧ merge (ClientSettings.toJson {}) (.obj []) = ClientSettings.toJson {} := by
  have hdefault := ClientSettings.canonical_toJson {}
  have hfile := parse_canonical ClientSettings.layeredText_parse
  obtain ⟨-, hself, hempty, hagain⟩ := Json.merge_counts_once hdefault hfile
  exact ⟨hdefault, hfile, ClientSettings.layeredText_parse,
    hagain {} _ _ ClientSettings.layeredText_parse, hself, hempty _ rfl⟩

end GatewayClient
