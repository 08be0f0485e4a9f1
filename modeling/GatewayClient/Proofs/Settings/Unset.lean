import GatewayClient.Proofs.Settings.Merging

/-!
# Values that a layer leaves unset

A `null` in a layer stands for a value that is not given, so that what lies below is to be seen
there. A merge leaves a `null` out where it lays an object over an object, entry by entry. So at a
path of keys at which the layer has `null` the outcome has what the target has, if the target has an
object for the last key of the path to stand in (`atPath?_merge_kept`). Where it has none, the layer
itself or a value of it is taken over whole, and a `null` within is taken over with it
(`atPath?_merge_taken`). Both go down the path together with the merge.
-/

namespace GatewayClient.Json

variable {below above entries : List (String × Json)} {key : String} {path front : List String}
  {source target value sub : Json}

/-- The value at a path of keys. -/
def atPath? : Json → List String → Option Json
  | v, [] => some v
  | v, key :: path => (v.get? key).bind fun sub => atPath? sub path

theorem atPath?_cons (h : lookup key entries = some value) :
    atPath? (.obj entries) (key :: path) = atPath? value path := by
  simp only [atPath?, get?, h, Option.bind_some]

/-- Only objects have values under keys. -/
theorem get?_eq_some (h : value.get? key = some sub) :
    ∃ entries, value = .obj entries ∧ lookup key entries = some sub := by
  cases value with
  | obj entries => exact ⟨entries, rfl, h⟩
  | _ => cases h

theorem atPath?_cons_eq_some (h : atPath? value (key :: path) = some sub) :
    ∃ entries v, value = .obj entries ∧ lookup key entries = some v
      ∧ atPath? v path = some sub := by
  obtain ⟨v, hv, hsub⟩ := Option.bind_eq_some_iff.mp h
  obtain ⟨entries, rfl, hl⟩ := get?_eq_some hv
  exact ⟨entries, v, rfl, hl, hsub⟩

theorem atPath?_concat : atPath? value (front ++ [key]) =
    (atPath? value front).bind fun sub => sub.get? key := by
  induction front generalizing value with
  | nil => simp only [List.nil_append, atPath?, Option.bind_some, Option.bind_fun_some]
  | cons k front ih => simp only [List.cons_append, atPath?, ih, Option.bind_assoc]

theorem ne_null_of_atPath? (h : atPath? value (front ++ [key]) = some sub) : value ≠ .null := by
  rintro rfl
  cases front with
  | nil => cases h
  | cons k front => cases h

/-- One key down the path. -/
theorem atPath?_merge_cons (habove : Ordered above) (hl : lookup key above = some value)
    (hvalue : value ≠ .null) :
    atPath? (merge (.obj below) (.obj above)) (key :: path) =
      atPath? (overlay (lookup key below) value) path := by
  rw [merge_obj]
  refine atPath?_cons ?_
  rw [lookup_mergeEntries habove, given_eq hl hvalue]
  rfl

/-- If the target has an object for the last key to stand in, its value is kept. -/
theorem atPath?_merge_kept (hsource : Canonical source)
    (hnull : atPath? source (front ++ [key]) = some .null)
    (htarget : atPath? target front = some (.obj below)) :
    atPath? (merge target source) (front ++ [key]) = lookup key below := by
  induction front generalizing target source with
  | nil =>
    obtain rfl := Option.some.inj htarget
    obtain ⟨above, v, rfl, hl, hv⟩ := atPath?_cons_eq_some hnull
    obtain rfl := Option.some.inj hv
    have hkept : lookup key (mergeEntries below above) = _ := lookup_mergeEntries hsource.ordered
    rw [given_null hl] at hkept
    rw [merge_obj, atPath?_concat]
    exact hkept
  | cons k front ih =>
    obtain ⟨above, v, rfl, hl, hv⟩ := atPath?_cons_eq_some hnull
    obtain ⟨under, b, rfl, hb, hfront⟩ := atPath?_cons_eq_some htarget
    rw [List.cons_append, atPath?_merge_cons hsource.ordered hl (ne_null_of_atPath? hv), hb]
    exact ih (hsource.at hl) hv hfront

/-- If it has none, the `null` is taken over. -/
theorem atPath?_merge_taken (hsource : Canonical source)
    (hnull : atPath? source (front ++ [key]) = some .null)
    (htarget : ∀ below, atPath? target front ≠ some (.obj below)) :
    atPath? (merge target source) (front ++ [key]) = some .null := by
  induction front generalizing target source with
  | nil =>
    rw [merge_replaced fun below _ hbelow _ => htarget below (congrArg some hbelow)]
    exact hnull
  | cons k front ih =>
    by_cases hobject : ∃ under, target = .obj under
    case neg =>
      rw [merge_replaced fun under _ hunder _ => hobject ⟨under, hunder⟩]
      exact hnull
    case pos =>
      obtain ⟨under, rfl⟩ := hobject
      obtain ⟨above, v, rfl, hl, hv⟩ := atPath?_cons_eq_some hnull
      rw [List.cons_append, atPath?_merge_cons hsource.ordered hl (ne_null_of_atPath? hv)]
      cases hb : lookup k under with
      | none => exact hv
      | some b =>
        exact ih (hsource.at hl) hv fun below hbelow =>
          htarget below ((atPath?_cons hb).trans hbelow)

/-- The target has an object for the last key of the path to stand in. -/
def HasPlace (target : Json) (path : List String) : Prop :=
  ∃ front key below, path = front ++ [key] ∧ atPath? target front = some (.obj below)

/-- **Where a `null` leaves a value as it is.** At a path of keys at which the source has `null` the
merged value has what the target has there, and nothing if the target has nothing there, exactly if
the target has an object for the last key of the path to stand in; for the path without keys that is
the source itself, and the target is kept only if it is `null` too. -/
theorem merge_keeps_unset (hsource : Canonical source)
    (hnull : atPath? source path = some .null) :
    atPath? (merge target source) path = atPath? target path ↔
      target.HasPlace path ∨ path = [] ∧ target = .null := by
  rcases path.eq_nil_or_concat with rfl | ⟨front, key, rfl⟩
  · obtain rfl := Option.some.inj hnull
    rw [merge_replaced (by simp)]
    constructor
    · intro heq
      exact .inr ⟨rfl, (Option.some.inj heq).symm⟩
    · rintro (⟨front, key, below, hpath, -⟩ | ⟨-, rfl⟩)
      · simp at hpath
      · rfl
  · rw [List.concat_eq_append] at hnull ⊢
    by_cases hplace : ∃ below, atPath? target front = some (.obj below)
    case pos =>
      obtain ⟨below, hbelow⟩ := hplace
      refine iff_of_true ?_ (.inl ⟨front, key, below, rfl, hbelow⟩)
      rw [atPath?_merge_kept hsource hnull hbelow, atPath?_concat, hbelow]
      rfl
    case neg =>
      rw [atPath?_merge_taken hsource hnull fun below hbelow => hplace ⟨below, hbelow⟩]
      refine iff_of_false (fun heq => ?_) ?_
      · obtain ⟨sub, hsub, hkey⟩ := Option.bind_eq_some_iff.mp (atPath?_concat.symm.trans heq.symm)
        obtain ⟨below, rfl, -⟩ := get?_eq_some hkey
        exact hplace ⟨below, hsub⟩
      · rintro (⟨front', key', below, hpath, hbelow⟩ | ⟨hpath, -⟩)
        · obtain rfl := List.append_inj_left' hpath rfl
          exact hplace ⟨below, hbelow⟩
        · simp at hpath

def proxyLayer : Json :=
  .obj [("proxy", .obj [("mode", .str "system"), ("url", .null)])]

def proxyBelow : Json :=
  .obj [("proxy", .obj [("mode", .str "url"), ("url", .str "http://p:1")])]

theorem merge_keeps_unset_proxy :
    Canonical proxyLayer ∧ atPath? proxyLayer ["proxy", "url"] = some .null
      ∧ atPath? (merge proxyBelow proxyLayer) ["proxy", "url"] = some (.str "http://p:1") := by
  have hlayer : Canonical proxyLayer := by
    refine .obj (.of_keys (by decide)) (List.forall_mem_singleton.mpr ?_)
    refine .obj (.of_keys (by decide)) ?_
    simp only [List.forall_mem_cons]
    exact ⟨.str _, .null, List.forall_mem_nil _⟩
  have hnull : atPath? proxyLayer ["proxy", "url"] = some .null := rfl
  have hplace : proxyBelow.HasPlace ["proxy", "url"] := ⟨["proxy"], "url", _, rfl, rfl⟩
  exact ⟨hlayer, hnull, (merge_keeps_unset hlayer hnull).mpr (.inl hplace)⟩

/-- A layer that is `null` replaces what lies below it, and a `null` in an object under a new key is
taken over. -/
theorem merge_takes_null :
    (∃ target source, Canonical target ∧ Canonical source ∧ atPath? source [] = some .null
      ∧ atPath? target [] = some (.obj [("a", .num (.int 1))])
      ∧ atPath? (merge target source) [] = some .null)
    ∧ ∃ target source, Canonical target ∧ Canonical source
      ∧ atPath? source ["a", "b"] = some .null ∧ atPath? target ["a", "b"] = none
      ∧ atPath? (merge target source) ["a", "b"] = some .null := by
  constructor
  · refine ⟨.obj [("a", .num (.int 1))], .null, ?_, .null, rfl, rfl, ?_⟩
    · exact .obj (.of_keys (by decide)) (List.forall_mem_singleton.mpr (.num _))
    · rw [merge_replaced (by simp), atPath?]
  · have hempty : Canonical (.obj []) := .obj List.Pairwise.nil (List.forall_mem_nil _)
    have hsource : Canonical (.obj [("a", .obj [("b", .null)])]) := by
      refine .obj (.of_keys (by decide)) (List.forall_mem_singleton.mpr ?_)
      exact .obj (.of_keys (by decide)) (List.forall_mem_singleton.mpr .null)
    refine ⟨.obj [], .obj [("a", .obj [("b", .null)])], hempty, hsource, rfl, rfl, ?_⟩
    have hplace : ∀ below, atPath? (.obj []) ["a"] ≠ some (.obj below) := by
      simp [atPath?, get?, lookup]
    exact atPath?_merge_taken hsource rfl hplace

end GatewayClient.Json
