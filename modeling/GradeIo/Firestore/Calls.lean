import GradeIo.Firestore.Merge
import GradeIo.Firestore.ResourcePath

/-!
# The writes of the store as calls of the client

`Write.onDoc` says what a write makes of a document of the store. The client is
called for each of them (`call`): `setData` with `merge`, with a value or an
array union, `updateData` with an array union, `delete`. What the client makes
of the document (`effectOf`) shows the same fields (`call_refines`), up to the
order of the keys in nested dictionaries, in which the client sorts (`norm`).
-/

namespace GradeIo.Firestore

open DocDb Keyed

mutual

/-- A stored value as data of a call. -/
def ofValue : Value → UserData
  | .null => .scalar .null
  | .bool b => .scalar (.bool b)
  | .number q => .scalar (.number q)
  | .string s => .scalar (.string s)
  | .timestamp t => .scalar (.timestamp t)
  | .array vs => .array (ofValues vs)
  | .map fs => .dictionary (ofFields fs)

def ofValues : List Value → List UserData
  | [] => []
  | v :: vs => ofValue v :: ofValues vs

def ofFields : Dict → List (String × UserData)
  | [] => []
  | (k, v) :: fs => (k, ofValue v) :: ofFields fs

end

/-- The value as the client stores it. -/
def norm (v : Value) : Value := (ofValue v).plain

def call : Write → Except String (List Mutation)
  | .setMerge p k v => DocumentReference.setData (keyOf p) (.dictionary [(k, ofValue v)]) true
  | .unionMerge p k v =>
      DocumentReference.setData (keyOf p) (.dictionary [(k, .arrayUnion [ofValue v])]) true
  | .unionUpdate p k v =>
      DocumentReference.updateData (keyOf p) (.dictionary [(k, .arrayUnion [ofValue v])])
  | .delete p => .ok (DocumentReference.deleteDocument (keyOf p))

/-- The content of a document of the client and a document of the store. -/
def Shows (c : Option Dict) (d : Option Doc) : Prop :=
  c.isSome = d.isSome ∧ ∀ k, (c.getD []).lookup k = (d.getD ∅)[k]?.map norm

/-- No other element of the array becomes equal to the value by sorting keys. -/
def Separate (o : Option Value) (v : Value) : Prop := ∀ e ∈ elements o, norm e = norm v → e = v

/-- A value is no dictionary, which would be merged into the present one; an
update has a key without dots. -/
def Fits : Write → Option Doc → Prop
  | .setMerge _ _ v, _ => ∀ fs, v ≠ .map fs
  | .unionMerge _ k v, d => Separate (d.getD ∅)[k]? v
  | .unionUpdate _ k v, d => '.' ∉ k.toList ∧ Separate (d.getD ∅)[k]? v
  | .delete _, _ => True

theorem plainList_ofValues (vs : List Value) :
    UserData.plainList (ofValues vs) = vs.map norm := by
  induction vs with
  | nil => rfl
  | cons v vs ih =>
      rw [ofValues, UserData.plainList, ih]
      rfl

/-- The array stays one, element by element, and nothing else becomes one. -/
theorem elements_map_norm (o : Option Value) : elements (o.map norm) = (elements o).map norm := by
  cases o with
  | none => rfl
  | some v =>
      cases v with
      | array vs =>
          show elements (some (.array (UserData.plainList (ofValues vs)))) = _
          rw [plainList_ofValues]
          rfl
      | _ => rfl

theorem map_addIfAbsent {o : Option Value} {v : Value} (h : Separate o v) :
    (addIfAbsent (elements o) v).map norm = addIfAbsent ((elements o).map norm) (norm v) := by
  have hmem : norm v ∈ (elements o).map norm ↔ v ∈ elements o := by
    constructor
    · intro hv
      obtain ⟨e, he, heq⟩ := List.mem_map.mp hv
      exact h e he heq ▸ he
    · exact fun hv => List.mem_map.mpr ⟨v, hv, rfl⟩
  unfold addIfAbsent
  by_cases hv : v ∈ elements o
  · rw [if_pos hv, if_pos (hmem.mpr hv)]
  · rw [if_neg hv, if_neg fun h => hv (hmem.mp h), List.map_append]
    rfl

/-- The array after a union, in the client and in the store. -/
theorem norm_union {o : Option Value} {v : Value} (h : Separate o v) :
    (TransformOperation.arrayUnion [norm v]).apply (o.map norm) =
      norm (.array (addIfAbsent (elements o) v)) := by
  have hnorm : norm (.array (addIfAbsent (elements o) v)) =
      .array ((addIfAbsent (elements o) v).map norm) :=
    congrArg Value.array (plainList_ofValues _)
  rw [hnorm, map_addIfAbsent h, TransformOperation.apply, elements_map_norm]
  rfl

/-! ## One field -/

/-- One leaf under one key: that key is carried out, the others stay. -/
theorem shows_of_carries {c : Option Dict} {d : Option Doc} {e : Dict} {k : String} {r : Request}
    {d' : Doc} (hcarries : Carries [([k], r)] (c.getD []) e) (hshows : Shows c d)
    (hself : r.result ((d.getD ∅)[k]?.map norm) = d'[k]?.map norm)
    (hother : ∀ l, l ≠ k → d'[l]? = (d.getD ∅)[l]?) : Shows (some e) (some d') := by
  obtain ⟨hleaf, happart⟩ := hcarries
  refine ⟨rfl, fun l => ?_⟩
  show e.lookup l = d'[l]?.map norm
  rw [← ObjectValue.get_singleton]
  by_cases hl : l = k
  · subst hl
    have hget := hleaf ([l], r) List.mem_cons_self
    rw [hget, ObjectValue.get_singleton, hshows.2, hself]
  · have hget := happart [l] (by
      intro m hm
      obtain rfl := List.mem_singleton.mp hm
      exact UserData.apart_of_ne (Ne.symm hl) [] [])
    rw [hget, ObjectValue.get_singleton, hshows.2, hother l hl]

theorem distinct_single {k : String} {x : UserData} (hx : x.Distinct) :
    (UserData.dictionary [(k, x)]).Distinct :=
  .dictionary (List.nodup_singleton k) fun f hf => by
    obtain rfl := List.mem_singleton.mp hf
    exact hx

theorem fieldLeaves_single {k : String} {x : UserData} {r : Request}
    (hx : x.leaves = [([], r)]) : UserData.fieldLeaves [(k, x)] = [([k], r)] := by
  rw [UserData.fieldLeaves, hx]
  rfl

theorem distinct_ofValue {v : Value} (h : ∀ fs, v ≠ .map fs) : (ofValue v).Distinct := by
  cases v with
  | map fs => exact absurd rfl (h fs)
  | array vs => exact .array _
  | _ => exact .scalar _

theorem leaves_ofValue {v : Value} (h : ∀ fs, v ≠ .map fs) :
    (ofValue v).leaves = [([], .set (norm v))] := by
  cases v with
  | map fs => exact absurd rfl (h fs)
  | _ => rfl

/-! ## Updates -/

theorem fromDotSeparatedString_eq_ok {k : String} {p : FieldPath} (hdot : '.' ∉ k.toList)
    (h : FieldPath.fromDotSeparatedString k = .ok p) : p = [k] := by
  unfold FieldPath.fromDotSeparatedString at h
  split at h
  · cases h
  · rw [List.splitOn_eq_singleton hdot] at h
    simp only at h
    split at h
    · cases h
    · simpa using (Except.ok.inj h).symm

/-- What is made of an update by one array union: nothing but its transform. -/
theorem updateData_arrayUnion {key : DocumentKey} {k : String} {v : Value} {ms : List Mutation}
    (hdot : '.' ∉ k.toList)
    (h : DocumentReference.updateData key (.dictionary [(k, .arrayUnion [ofValue v])]) = .ok ms) :
    ms = [.patch key [] [] (.exists true), .transform key [⟨[k], .arrayUnion [norm v]⟩]] := by
  rw [DocumentReference.updateData, parsedUpdateData] at h
  obtain ⟨parsed, hparsed, hms⟩ := bind_ok.mp h
  obtain ⟨⟨d, acc⟩, hupdates, hok⟩ := bind_ok.mp hparsed
  obtain rfl := Except.ok.inj hok
  obtain rfl := Except.ok.inj hms
  rw [parseUpdates] at hupdates
  obtain ⟨p, hp, hfield⟩ := bind_ok.mp hupdates
  obtain rfl := fromDotSeparatedString_eq_ok hdot hp
  obtain ⟨child, hchild, hwalk⟩ := bind_ok.mp hfield
  obtain ⟨⟨o, acc'⟩, hdata, hrest⟩ := bind_ok.mp hwalk
  have hpath : child = ⟨some [k], false⟩ := by
    obtain ⟨-, -, hchild⟩ := bind_ok.mp hchild
    exact (Except.ok.inj hchild).symm
  have hw := walks _ _ _ _ _ hdata
  obtain rfl : o = none := hw.value
  obtain ⟨rfl, rfl⟩ := Prod.mk.inj (Except.ok.inj hrest)
  have hcollects := hw.placed [k] (by rw [hpath]) (List.cons_ne_nil _ _)
  have hmask : acc'.fieldMask = [] := by
    rw [List.eq_nil_iff_forall_not_mem]
    intro q hq
    rcases (hcollects.mask q).mp hq with hq | ⟨l, hl, hop, -⟩
    · cases hq
    · obtain rfl := List.mem_singleton.mp hl
      cases hop
  show .patch key [] acc'.fieldMask (.exists true) :: transformMutations key acc'.fieldTransforms = _
  rw [hmask, hcollects.transforms]
  rfl

/-! ## All writes -/

/-- A union alone has the transform as its only leaf. -/
theorem carries_union {k : String} {o : Dict} (op : TransformOperation) :
    Carries [([k], .transform op)] o
      ([(⟨[k], op⟩ : FieldTransform)].foldl (fun d t => ObjectValue.set t.path
        (t.transformation.apply (ObjectValue.get t.path (Mutation.patchObject [] [] o))) d)
        (Mutation.patchObject [] [] o)) := by
  refine carries (List.pairwise_singleton _ _) ?_ ?_ ?_
  · intro l hl
    obtain rfl := List.mem_singleton.mp hl
    exact List.cons_ne_nil _ _
  · intro q
    simp [Request.op?]
  · intro l hl
    obtain rfl := List.mem_singleton.mp hl
    rfl

/-- An accepted call for a write is regular and makes of the document what the
write does. -/
theorem call_refines {w : Write} {ms : List Mutation} {c : Option Dict} {d : Option Doc}
    (h : call w = .ok ms) (hfits : Fits w d) (hshows : Shows c d) :
    Regular (keyOf w.path) ms ∧ Shows (effectOf ms (keyOf w.path) c) (w.onDoc d) := by
  cases w with
  | setMerge p k v =>
      obtain ⟨hregular, heffect⟩ := carries_setData (distinct_single (distinct_ofValue hfits)) h
      obtain ⟨e, he, hcarries⟩ := heffect c
      rw [fieldLeaves_single (leaves_ofValue hfits)] at hcarries
      refine ⟨hregular, ?_⟩
      show Shows (effectOf ms (keyOf p) c) _
      rw [he]
      refine shows_of_carries hcarries hshows ?_ ?_
      · simp [Request.result]
      · intro l hl
        simp [Std.ExtTreeMap.getElem?_insert, Ne.symm hl]
  | unionMerge p k v =>
      obtain ⟨hregular, heffect⟩ := carries_setData (distinct_single (.arrayUnion _)) h
      obtain ⟨e, he, hcarries⟩ := heffect c
      rw [fieldLeaves_single rfl] at hcarries
      refine ⟨hregular, ?_⟩
      show Shows (effectOf ms (keyOf p) c) _
      rw [he]
      refine shows_of_carries hcarries hshows ?_ ?_
      · rw [Doc.union_self, Option.map_some, ← norm_union hfits]
        rfl
      · exact fun l hl => Doc.union_of_ne _ hl v
  | unionUpdate p k v =>
      obtain rfl := updateData_arrayUnion hfits.1 h
      refine ⟨.patchTransform _ _ _ (Or.inr rfl) (List.forall_mem_nil _), ?_⟩
      obtain ⟨hsome, hlookup⟩ := hshows
      cases c with
      | none =>
          cases d with
          | none =>
              have heffect : ∀ ts, effectOf [.patch (keyOf p) [] [] (.exists true),
                  .transform (keyOf p) ts] (keyOf p) none = none := by
                intro ts
                simp [effectOf, Mutation.key, Mutation.effect, patchContent, transformContent]
              show Shows (effectOf _ (keyOf p) none) none
              rw [heffect]
              exact ⟨rfl, hlookup⟩
          | some d => cases hsome
      | some o =>
          cases d with
          | none => cases hsome
          | some d =>
              have heffect : effectOf [.patch (keyOf p) [] [] (.exists true),
                  .transform (keyOf p) [⟨[k], .arrayUnion [norm v]⟩]] (keyOf p) (some o) = _ :=
                effectOf_patch (keyOf p) [] [] [⟨[k], .arrayUnion [norm v]⟩] rfl
              show Shows (effectOf _ (keyOf p) (some o)) (some (Doc.union d k v))
              rw [heffect]
              refine shows_of_carries (carries_union _) ⟨rfl, hlookup⟩ ?_ ?_
              · have hunion := norm_union hfits.2
                rw [Option.getD_some] at hunion
                rw [Doc.union_self, Option.map_some, ← hunion]
                rfl
              · exact fun l hl => Doc.union_of_ne _ hl v
  | delete p =>
      obtain rfl := Except.ok.inj h
      refine ⟨.delete, ?_⟩
      show Shows (effectOf [.delete (keyOf p) .none] (keyOf p) c) none
      simp [effectOf, Mutation.key, Mutation.effect, Shows]

end GradeIo.Firestore
