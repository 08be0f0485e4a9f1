import GatewayClient.Proofs.Secrets.Veil
import GatewayClient.Proofs.Settings.Layers
import GatewayClient.Settings.Load

/-!
# Loading secrets

The veil of a parsed settings file lies over the texts at the places of the token and of the proxy
password; that of the environment lies over `RELAY_TOKEN`, unless it is empty. A file is laid over
the defaults entry by entry, and a record is decoded field by field, so a veiled file decodes into
the veiled settings (`ClientSettings.layered_veil`). An override writes a value that is not a secret
or one that is veiled itself (`ClientSettings.override_veil`). What loading says, and the settings
that it gives when they are veiled, is therefore the same for files and environments that are the
same when veiled (`ClientSettings.load_alike`).
-/

namespace GatewayClient

namespace Json

/-! ## Changing the values of a record -/

/-- The word over a text. A value that is no text is left as it is. -/
def coverText : Json → Json
  | .str _ => .str cover
  | v => v

/-- Changes the values of entries by their keys. -/
def mapEntries (change : String → Json → Json) (entries : List (String × Json)) :
    List (String × Json) :=
  entries.map fun e => (e.1, change e.1 e.2)

/-- Changes the values of a record by the names of their fields, however the record is given. -/
def mapRecord (names : List String) (change : String → Json → Json) : Json → Json
  | .obj entries => .obj (mapEntries change entries)
  | .arr items => .arr (items.mapIdx fun i v => change (names.getD i "") v)
  | v => v

/-! ## Changes and merging -/

/-- A change that may be made before or after a merge. -/
structure Lays (change : Json → Json) : Prop where
  isNull : ∀ v, (change v).isNull = v.isNull
  merge : ∀ target source, merge (change target) (change source) = change (merge target source)

theorem Lays.null {change : Json → Json} (hchange : Lays change) : change .null = .null := by
  have hisNull := hchange.isNull .null
  generalize change .null = v at hisNull ⊢
  cases v with
  | null => rfl
  | _ => cases hisNull

theorem Lays.ne_null {change : Json → Json} (hchange : Lays change) {v : Json} (hv : v ≠ .null) :
    change v ≠ .null :=
  isNull_eq_false.mp ((hchange.isNull v).trans (isNull_eq_false.mpr hv))

theorem lays_id : Lays id := ⟨fun _ => rfl, fun _ _ => rfl⟩

theorem coverText_lays : Lays coverText where
  isNull v := by cases v <;> rfl
  merge target source := by cases target <;> cases source <;> simp only [coverText, merge]

section

variable {change : String → Json → Json} {entries target source : List (String × Json)}
  {key : String} {value : Json}

theorem mapEntries_cons : mapEntries change ((key, value) :: entries) =
    (key, change key value) :: mapEntries change entries := rfl

theorem lookup_mapEntries : lookup key (mapEntries change entries) =
    (lookup key entries).map (change key) := by
  induction entries with
  | nil => rfl
  | cons e rest ih =>
    obtain ⟨k, v⟩ := e
    rw [mapEntries_cons, lookup_cons, lookup_cons]
    by_cases hkey : k = key
    · rw [if_pos hkey, if_pos hkey, Option.map_some, hkey]
    · rw [if_neg hkey, if_neg hkey]
      exact ih

theorem insertEntry_mapEntries : insertEntry key (change key value) (mapEntries change entries) =
    mapEntries change (insertEntry key value entries) := by
  induction entries with
  | nil => rfl
  | cons e rest ih =>
    obtain ⟨k, v⟩ := e
    rw [mapEntries_cons, insertEntry, insertEntry]
    split
    · rfl
    · split
      · rfl
      · exact congrArg (List.cons _) ih

variable (hchange : ∀ key, Lays (change key))
include hchange

/-- The induction is on the entries of the source. A `null` among them counts as none, before the
change and after it. -/
theorem mergeEntries_mapEntries : mergeEntries (mapEntries change target)
    (mapEntries change source) = mapEntries change (mergeEntries target source) := by
  induction source generalizing target with
  | nil =>
    show mergeEntries _ [] = _
    rw [mergeEntries_nil, mergeEntries_nil]
  | cons e rest ih =>
    obtain ⟨k, v⟩ := e
    by_cases hnull : v = .null
    · subst hnull
      rw [mergeEntries_null, ← ih, mapEntries_cons, (hchange k).null, mergeEntries_null]
    · have hoverlay : overlay ((lookup k target).map (change k)) (change k v) =
          change k (overlay (lookup k target) v) := by
        cases lookup k target with
        | none => rfl
        | some below => exact (hchange k).merge below v
      rw [mergeEntries_cons hnull, ← ih, ← insertEntry_mapEntries, ← hoverlay, mapEntries_cons,
        mergeEntries_cons ((hchange k).ne_null hnull), ← lookup_mapEntries]

theorem mapRecord_lays (names : List String) : Lays (mapRecord names change) where
  isNull v := by cases v <;> rfl
  merge target source := by
    cases target <;> cases source <;>
      simp only [mapRecord, merge, mergeEntries_mapEntries hchange]

end

/-! ## Changes and decoding -/

section

variable {ρ α : Type} {fields : List (Field ρ)} {change : String → Json → Json} {veil : ρ → ρ}

/-- A record with changed values is written field by field into the changed record. -/
def Follows (fields : List (Field ρ)) (change : String → Json → Json) (veil : ρ → ρ) : Prop :=
  ∀ f ∈ fields, ∀ v r, f.put (change f.name v) (veil r) = (f.put v r).map veil

theorem field_follows {name : String} {decode : Json → Decoded α} {write : α → ρ → ρ}
    {g : α → α} {change : Json → Json} (hdecode : ∀ v, decode (change v) = (decode v).map g)
    (hwrite : ∀ a r, write (g a) (veil r) = veil (write a r)) (v : Json) (r : ρ) :
    (field name decode write).put (change v) (veil r) =
      ((field name decode write).put v r).map veil := by
  simp only [field, hdecode]
  cases decode v with
  | error e => rfl
  | ok a => exact congrArg Except.ok (hwrite a r)

/-- The fields that a change leaves alone. -/
theorem field_kept {name : String} {decode : Json → Decoded α} {write : α → ρ → ρ}
    (hwrite : ∀ a r, write a (veil r) = veil (write a r)) (v : Json) (r : ρ) :
    (field name decode write).put v (veil r) =
      ((field name decode write).put v r).map veil := by
  have hdecode : ∀ v, decode (id v) = (decode v).map id := fun v => by
    rw [Except.map_id]
    rfl
  exact field_follows hdecode hwrite v r

variable (hfollows : Follows fields change veil)
include hfollows

theorem putEntries_mapEntries (entries : List (String × Json)) (r : ρ) :
    putEntries fields (mapEntries change entries) (veil r) =
      (putEntries fields entries r).map veil := by
  induction entries generalizing r with
  | nil => rfl
  | cons e rest ih =>
    obtain ⟨key, v⟩ := e
    rw [mapEntries_cons, putEntries, putEntries]
    cases hfind : fields.find? (·.name = key) with
    | none => exact ih r
    | some f =>
      have hname : f.name = key := by simpa using List.find?_some hfind
      have hput := hfollows f (List.mem_of_find?_eq_some hfind) v r
      dsimp only
      rw [← hname, hput]
      cases f.put v r with
      | error e => rfl
      | ok r' => exact ih r'

theorem putItems_mapIdx (items : List Json) (r : ρ) :
    putItems fields (items.mapIdx fun i v => change ((fields.map (·.name)).getD i "") v) (veil r) =
      (putItems fields items r).map fun p => (veil p.1, p.2) := by
  induction fields generalizing items r with
  | nil => simp only [putItems, List.length_mapIdx, Except.map]
  | cons f fields ih =>
    cases items with
    | nil => rfl
    | cons v items =>
      have hput := hfollows f List.mem_cons_self v r
      rw [List.mapIdx_cons, putItems, putItems]
      rw [show (List.map (·.name) (f :: fields)).getD 0 "" = f.name from rfl, hput]
      cases f.put v r with
      | error e => rfl
      | ok r' => exact ih (fun g hg => hfollows g (List.mem_cons_of_mem _ hg)) items r'

/-- A record with changed values decodes into the changed record. -/
theorem decodeRecord_mapRecord {name : String} {start : ρ} {finish : Layout → ρ → Decoded α}
    {g : α → α} (hstart : veil start = start)
    (hfinish : ∀ layout r, finish layout (veil r) = (finish layout r).map g) (v : Json) :
    decodeRecord name fields start finish (mapRecord (fields.map (·.name)) change v) =
      (decodeRecord name fields start finish v).map g := by
  cases v with
  | obj entries =>
    have hput := putEntries_mapEntries hfollows entries start
    rw [hstart] at hput
    simp only [mapRecord, decodeRecord, hput]
    cases putEntries fields entries start with
    | error e => rfl
    | ok r => exact hfinish .entries r
  | arr items =>
    have hput := putItems_mapIdx hfollows items start
    rw [hstart] at hput
    simp only [mapRecord, decodeRecord, hput, List.length_mapIdx]
    rcases putItems fields items start with e | ⟨r, left⟩
    · rfl
    · simp only [Except.map, bind, Except.bind, hfinish]
      cases finish (.items items.length) r with
      | error e => rfl
      | ok a =>
        dsimp only [Except.map]
        split <;> rfl
  | _ => rfl

theorem decodeDefaulted_mapRecord {name : String} {default : ρ} (hdefault : veil default = default)
    (v : Json) :
    decodeDefaulted name fields default (mapRecord (fields.map (·.name)) change v) =
      (decodeDefaulted name fields default v).map veil :=
  decodeRecord_mapRecord hfollows hdefault (fun _ _ => rfl) v

end

end Json

/-! ## Files -/

def ProxyCredentials.veilField (name : String) : Json → Json :=
  if name = "password" then Json.coverText else id

def ProxyCredentials.veilJson : Json → Json := Json.mapRecord (fields.map (·.name)) veilField

def ProxyConfig.veilField (name : String) : Json → Json :=
  if name = "credentials" then ProxyCredentials.veilJson else id

def ProxyConfig.veilJson : Json → Json := Json.mapRecord (fields.map (·.name)) veilField

def ClientSettings.veilField (name : String) : Json → Json :=
  if name = "token" then Json.coverText
  else if name = "proxy" then ProxyConfig.veilJson
  else id

/-- A parsed settings file with the word over its token and its proxy password. -/
def ClientSettings.veilJson : Json → Json := Json.mapRecord (fields.map (·.name)) veilField

namespace Json

theorem decodeString_cover (v : Json) :
    decodeString (coverText v) = (decodeString v).map fun _ => cover := by
  cases v <;> rfl

theorem decodeOption_change {α : Type} {decode : Json → Decoded α} {change : Json → Json}
    {g : α → α} (hchange : Lays change) (hdecode : ∀ v, decode (change v) = (decode v).map g)
    (v : Json) : decodeOption decode (change v) = (decodeOption decode v).map (Option.map g) := by
  have given : ∀ v : Json, v ≠ .null → decodeOption decode v = (decode v).map some := by
    rintro (_ | _ | _ | _ | _ | _) hv
    · exact absurd rfl hv
    all_goals rfl
  by_cases hv : v = .null
  · rw [hv, hchange.null]
    rfl
  · rw [given _ (hchange.ne_null hv), given _ hv, hdecode]
    cases decode v <;> rfl

end Json

theorem ProxyCredentials.veilJson_lays : Json.Lays veilJson := by
  refine Json.mapRecord_lays (fun name => ?_) _
  unfold veilField
  split
  · exact Json.coverText_lays
  · exact Json.lays_id

def ProxyCredentials.Draft.veil (r : Draft) : Draft :=
  { r with password := r.password.map fun _ => cover }

theorem ProxyCredentials.ofJson_veil (v : Json) : ofJson (veilJson v) = (ofJson v).map veil := by
  have hfollows : Json.Follows fields veilField Draft.veil := by
    simp only [Json.Follows, fields, List.forall_mem_cons]
    exact ⟨Json.field_kept fun _ _ => rfl,
      Json.field_follows Json.decodeString_cover fun _ _ => rfl, List.forall_mem_nil _⟩
  refine Json.decodeRecord_mapRecord hfollows rfl ?_ v
  rintro layout ⟨username, password⟩
  cases username <;> cases password <;> cases layout <;> rfl

theorem ProxyConfig.veilJson_lays : Json.Lays veilJson := by
  refine Json.mapRecord_lays (fun name => ?_) _
  unfold veilField
  split
  · exact ProxyCredentials.veilJson_lays
  · exact Json.lays_id

theorem ProxyConfig.ofJson_veil (v : Json) : ofJson (veilJson v) = (ofJson v).map veil := by
  have hcredentials :=
    Json.decodeOption_change ProxyCredentials.veilJson_lays ProxyCredentials.ofJson_veil
  have hfollows : Json.Follows fields veilField veil := by
    simp only [Json.Follows, fields, List.forall_mem_cons]
    exact ⟨Json.field_kept fun _ _ => rfl, Json.field_kept fun _ _ => rfl,
      Json.field_follows hcredentials fun _ _ => rfl, List.forall_mem_nil _⟩
  exact Json.decodeDefaulted_mapRecord hfollows rfl v

namespace ClientSettings

theorem veilJson_lays : Json.Lays veilJson := by
  refine Json.mapRecord_lays (fun name => ?_) _
  unfold veilField
  split
  · exact Json.coverText_lays
  · split
    · exact ProxyConfig.veilJson_lays
    · exact Json.lays_id

theorem ofJson_veil (v : Json) : ofJson (veilJson v) = (ofJson v).map veil := by
  have htoken := Json.decodeOption_change Json.coverText_lays Json.decodeString_cover
  have hfollows : Json.Follows fields veilField veil := by
    simp only [Json.Follows, fields, List.forall_mem_cons]
    exact ⟨Json.field_follows htoken fun _ _ => rfl,
      Json.field_kept fun _ _ => rfl, Json.field_kept fun _ _ => rfl,
      Json.field_kept fun _ _ => rfl, Json.field_kept fun _ _ => rfl,
      Json.field_kept fun _ _ => rfl,
      Json.field_follows ProxyConfig.ofJson_veil fun _ _ => rfl,
      Json.field_kept fun _ _ => rfl, Json.field_kept fun _ _ => rfl, List.forall_mem_nil _⟩
  exact Json.decodeDefaulted_mapRecord hfollows rfl v

theorem layered_veil (file : Json) : layered (veilJson file) = (layered file).map veil := by
  have hdefaults : veilJson (toJson {}) = toJson {} := by rfl
  have hmerge := veilJson_lays.merge (toJson {}) file
  rw [hdefaults] at hmerge
  rw [layered, hmerge, ofJson_veil]
  rfl

end ClientSettings

/-! ## The environment -/

/-- The word over a token that is set. An empty one counts as unset. -/
def veilVariables (lookup : String → Option String) (name : String) : Option String :=
  if name = "RELAY_TOKEN" then (lookup name).map fun v => if v.isEmpty then v else cover
  else lookup name

namespace Override

variable {lookup : String → Option String} {o : Override}

/-- An override that writes no secret. -/
theorem apply_veil_of_put (hname : o.name ≠ "RELAY_TOKEN")
    (hput : ∀ v s, o.put v s.veil = (o.put v s).map ClientSettings.veil) (s : ClientSettings) :
    o.apply (veilVariables lookup) s.veil =
      ((o.apply lookup s).1.veil, (o.apply lookup s).2) := by
  unfold apply
  rw [veilVariables, if_neg hname]
  cases lookup o.name with
  | none => rfl
  | some v =>
      dsimp only
      rw [hput]
      split
      · rfl
      · cases o.put v s <;> rfl

theorem parsed_put_veil {α : Type} {name complaint : String} {parse? : String → Option α}
    {write : α → ClientSettings → ClientSettings}
    (hwrite : ∀ a s, write a s.veil = (write a s).veil) (v : String) (s : ClientSettings) :
    (parsed name complaint parse? write).put v s.veil =
      ((parsed name complaint parse? write).put v s).map ClientSettings.veil := by
  simp only [parsed]
  cases parse? v with
  | none => rfl
  | some a => exact congrArg Except.ok (hwrite a s)

theorem apply_veil (ho : o ∈ all) (s : ClientSettings) :
    o.apply (veilVariables lookup) s.veil =
      ((o.apply lookup s).1.veil, (o.apply lookup s).2) := by
  revert s
  revert o
  simp only [all, List.forall_mem_cons]
  refine ⟨fun s => ?token, apply_veil_of_put (by decide) (parsed_put_veil fun _ _ => rfl),
    apply_veil_of_put (by decide) (parsed_put_veil fun _ _ => rfl),
    apply_veil_of_put (by decide) (parsed_put_veil fun _ _ => rfl),
    apply_veil_of_put (by decide) (parsed_put_veil fun _ _ => rfl),
    apply_veil_of_put (by decide) (parsed_put_veil fun _ _ => rfl),
    apply_veil_of_put (by decide) fun _ _ => rfl,
    apply_veil_of_put (by decide) fun _ _ => rfl, List.forall_mem_nil _⟩
  unfold apply
  dsimp only
  rw [veilVariables, if_pos rfl]
  cases lookup "RELAY_TOKEN" with
  | none => rfl
  | some v =>
      dsimp only [Option.map_some]
      by_cases hempty : v.isEmpty
      · rw [if_pos hempty, if_pos hempty, if_pos hempty]
      · rw [if_neg hempty, if_neg hempty]
        rfl

theorem applyEach_veil : ∀ (os : List Override) (s : ClientSettings), (∀ o ∈ os, o ∈ all) →
    applyEach (veilVariables lookup) os s.veil =
      ((applyEach lookup os s).1.veil, (applyEach lookup os s).2)
  | [], _, _ => rfl
  | o :: rest, s, hos => by
      have hrest := applyEach_veil rest (o.apply lookup s).1 (List.forall_mem_cons.mp hos).2
      rw [applyEach, applyEach, apply_veil (List.forall_mem_cons.mp hos).1]
      dsimp only
      rw [hrest]

end Override

namespace ClientSettings

theorem override_veil (s : ClientSettings) (lookup : String → Option String) :
    s.veil.override (veilVariables lookup) =
      ((s.override lookup).1.veil, (s.override lookup).2) :=
  Override.applyEach_veil Override.all s fun _ ho => ho

theorem finish_veil (s : ClientSettings) (lookup : String → Option String) :
    s.veil.finish (veilVariables lookup) =
      ((s.finish lookup).1.map veil, (s.finish lookup).2) := by
  have hvalidate : ∀ s : ClientSettings, s.veil.validate = s.validate := fun _ => rfl
  unfold finish
  rw [override_veil]
  dsimp only
  rw [hvalidate]
  cases (s.override lookup).1.validate <;> rfl

end ClientSettings

/-! ## Files and environments that are alike -/

namespace SettingsFile

/-- The value that the bytes of a file stand for, if they stand for one. -/
def value? (content : ByteArray) : Option Json :=
  (String.fromUTF8? content).bind fun text => (Json.parse text).toOption

theorem value?_toUTF8 (text : String) : value? text.toUTF8 = (Json.parse text).toOption := by
  rw [value?, Text.fromUTF8?_toUTF8]
  rfl

/-- Two files are the same, or both have bytes and are the same when veiled. Bytes that stand for no
value say nothing about secrets. -/
inductive Alike : SettingsFile → SettingsFile → Prop
  | same (file : SettingsFile) : Alike file file
  | veiled {content content' : ByteArray} :
      (value? content).map ClientSettings.veilJson = (value? content').map ClientSettings.veilJson →
      Alike (.bytes content) (.bytes content')

/-- The settings of a file before the environment overrides them. -/
def read (file : SettingsFile) : Except SettingsError ClientSettings :=
  match file.text? with
  | .error f => .error (.unreadable f)
  | .ok text => ClientSettings.ofFile text

theorem read_bytes (content : ByteArray) :
    (read (.bytes content)).toOption =
      (value? content).bind fun value => (ClientSettings.layered value).toOption := by
  unfold read text? value?
  dsimp only
  cases String.fromUTF8? content with
  | none => rfl
  | some text =>
      dsimp only [Option.bind_some, ClientSettings.ofFile]
      cases Json.parse text with
      | error e => rfl
      | ok value =>
          dsimp only [Except.toOption, Option.bind_some]
          cases ClientSettings.layered value <;> rfl

theorem Alike.read {file file' : SettingsFile} (h : file.Alike file') :
    file.read.toOption.map ClientSettings.veil = file'.read.toOption.map ClientSettings.veil := by
  cases h with
  | same => rfl
  | @veiled content content' hvalue =>
      have hread : ∀ content,
          (SettingsFile.read (.bytes content)).toOption.map ClientSettings.veil =
          ((value? content).map ClientSettings.veilJson).bind
            fun value => (ClientSettings.layered value).toOption := by
        intro content
        rw [read_bytes]
        cases value? content with
        | none => rfl
        | some value =>
            dsimp only [Option.map_some, Option.bind_some]
            rw [ClientSettings.layered_veil]
            cases ClientSettings.layered value <;> rfl
      rw [hread, hread, hvalue]

theorem Alike.announcement {file file' : SettingsFile} (h : file.Alike file') (path : String) :
    ClientSettings.announcement path file = ClientSettings.announcement path file' := by
  cases h <;> rfl

end SettingsFile

namespace ClientSettings

theorem load_eq (path : String) (file : SettingsFile) (lookup : String → Option String) :
    load path file lookup =
      match file.read with
      | .error e => (.error e, [announcement path file])
      | .ok s => ((s.finish lookup).1, announcement path file :: (s.finish lookup).2) := by
  unfold load SettingsFile.read
  cases file.text? with
  | error f => rfl
  | ok text => cases hfile : ofFile text <;> simp only [hfile]

/-- **Loading says the same under files and environments that are alike**, and what it gives is the
same when veiled. -/
theorem load_alike (path : String) {file file' : SettingsFile} {lookup lookup' : String → Option String}
    (hfile : file.Alike file') (hlookup : veilVariables lookup = veilVariables lookup') :
    (load path file lookup).2 = (load path file' lookup').2
      ∧ (load path file lookup).1.toOption.map veil = (load path file' lookup').1.toOption.map veil := by
  have hread := hfile.read
  rw [load_eq, load_eq, hfile.announcement path]
  generalize file.read = result, file'.read = result' at hread ⊢
  rcases result with e | s <;> rcases result' with e' | s'
  · exact ⟨rfl, rfl⟩
  · cases hread
  · cases hread
  · have hsettings : s.veil = s'.veil := Option.some.inj hread
    have hfinish := s.finish_veil lookup
    rw [hsettings, hlookup, s'.finish_veil lookup'] at hfinish
    obtain ⟨hresult, hwarnings⟩ := Prod.mk.inj hfinish
    refine ⟨congrArg (List.cons _) hwarnings.symm, ?_⟩
    have htoOption : ∀ r : Except SettingsError ClientSettings,
        r.toOption.map veil = (r.map veil).toOption := by
      rintro (e | s) <;> rfl
    rw [htoOption, htoOption, hresult]

end ClientSettings

end GatewayClient
