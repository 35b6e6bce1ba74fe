import LinkedSchema.Proofs.Build.Likewise
import LinkedSchema.Proofs.Normalize.Plural
/-! Defaults that have no say. The default of an object of several types makes no difference to what
is compiled. -/
namespace LinkedSchema

variable {d e : Document} {g h : Graph} {root : NodeId} {n : Node} {options : Options}
  {fileName : Option String} {names : List String} {type v : Json}

namespace Build

theorem isStr_of_bool (fits : defaultFits type v = true) (kind : v.isBool = true) :
    ["boolean"].any type.isStr = true := by
  unfold defaultFits at fits
  cases v with
  | bool b => split at fits <;> first | rfl | cases fits
  | _ => cases kind

theorem isStr_of_number (fits : defaultFits type v = true) (kind : v.isNumber = true) :
    ["integer", "number"].any type.isStr = true := by
  unfold defaultFits at fits
  cases v with
  | int k => split at fits <;> first | rfl | cases fits
  | float x => split at fits <;> first | rfl | cases fits
  | _ => cases kind

theorem isStr_of_text (fits : defaultFits type v = true) (kind : v.isText = true) :
    ["string"].any type.isStr = true := by
  unfold defaultFits at fits
  cases v with
  | str text => split at fits <;> first | rfl | cases fits
  | _ => cases kind

end Build

namespace Node

/-- The default has no say: the node is of several types, or its default is a value of its type. -/
def Mute (n : Node) : Prop :=
  n.type.isArr = true ∨ ∀ v ∈ n.default, Build.defaultFits n.type v = true

theorem mute_ofType (n : Node) (type : Json) : (n.ofType type).Mute :=
  .inr fun _ given => (Option.mem_filter_iff.mp given).2

theorem isScalar_of_mute {kind : Json → Bool} (mute : n.Mute)
    (told : ∀ {type v}, Build.defaultFits type v = true → kind v = true →
      names.any type.isStr = true) :
    n.isScalar names kind = (n.enum.isNull && names.any n.type.isStr) := by
  unfold isScalar
  rcases mute with several | fits
  · simp [isCompound, several]
  · cases given : n.default with
    | none => simp [defaultMeets, given]
    | some v =>
      by_cases meets : kind v = true
      · simp [told (fits v given) meets]
      · simp [defaultMeets, given, meets]

/-- No default is a value of no type. -/
theorem default_of_mute (mute : n.Mute) (untyped : n.type = .null) : n.default = none := by
  rcases mute with several | fits
  · rw [untyped] at several
    cases several
  · cases given : n.default with
    | none => rfl
    | some v =>
      have fits := fits v given
      rw [untyped] at fits
      cases fits

/-- Nodes that differ in defaults that have no say are of the same categories. -/
theorem categories_of_mute {default : Option Json} (mute : n.Mute)
    (other : Node.Mute { n with default }) : categories { n with default } = n.categories := by
  have holds : Category.holds { n with default } = Category.holds n := by
    funext category
    cases category with
    | boolean =>
      exact (isScalar_of_mute other Build.isStr_of_bool).trans
        (isScalar_of_mute mute Build.isStr_of_bool).symm
    | number =>
      exact (isScalar_of_mute other Build.isStr_of_number).trans
        (isScalar_of_mute mute Build.isStr_of_number).symm
    | string =>
      exact (isScalar_of_mute other Build.isStr_of_text).trans
        (isScalar_of_mute mute Build.isStr_of_text).symm
    | any =>
      have empty : isEmpty { n with default } = n.isEmpty := by
        cases untyped : n.type with
        | null =>
          have absent : default = none := default_of_mute other untyped
          simp [isEmpty, plainKeywords, untyped, absent, default_of_mute mute untyped]
        | _ => simp [isEmpty, plainKeywords, untyped, Json.isNull]
      rw [Category.holds, Category.holds, empty]
    | _ => rfl
  unfold categories
  rw [holds]

/-- The same node, or one with another default, where both defaults have no say. -/
def SameButMute (n m : Node) : Prop :=
  (∃ default, m = { n with default }) ∧ (m = n ∨ n.Mute ∧ m.Mute)

theorem sameButMute_kinship : Kinship SameButMute Eq where
  title := by rintro n _ ⟨⟨_, rfl⟩, _⟩; rfl
  id := by rintro n _ ⟨⟨_, rfl⟩, _⟩; rfl
  deprecated := by rintro n _ ⟨⟨_, rfl⟩, _⟩; rfl
  categories := by
    rintro n _ ⟨⟨default, rfl⟩, unchanged | ⟨mute, other⟩⟩
    · rw [unchanged]
    · exact categories_of_mute mute other
  plan := by
    rintro n _ i fileName category ⟨⟨_, rfl⟩, _⟩
    cases category <;> rfl
  unnamed := by
    rintro n _ ⟨⟨default, rfl⟩, unchanged | mute⟩
    · exact ⟨⟨default, rfl⟩, .inl (by rw [unchanged])⟩
    · exact ⟨⟨default, rfl⟩, .inr mute⟩
  ofType := by
    rintro n _ type ⟨⟨default, rfl⟩, _⟩
    exact ⟨⟨_, rfl⟩, .inr ⟨n.mute_ofType type, mute_ofType _ type⟩⟩
  description := by rintro n _ ⟨⟨_, rfl⟩, _⟩; rfl
  refl _ := rfl
  image f same := congrArg f same

end Node

theorem TypeGraph.Akin.eq {a b : TypeGraph} (akin : a.Akin Eq b) : b = a := by
  have each (t : TypeId) : b.node t = a.node t := by
    obtain ⟨rest, comment⟩ := akin.node t
    rw [rest, ← comment]
  have length := akin.size
  obtain ⟨xs⟩ := a
  obtain ⟨ys⟩ := b
  congr 1
  refine Array.ext length fun i hy hx => ?_
  simpa [TypeGraph.node, Array.getD_eq_getD_getElem?, hx, hy] using each i

namespace Omission

/-- The defaults of objects of several types are left out. -/
def defaultless : Omission where
  names := ["default"]
  applies fields :=
    (match fields.lookup "type" with
      | some (.arr types) => decide (2 ≤ types.length)
      | _ => false) &&
    (fields.lookup "const").isNone && ((fields.lookup "enum").getD .null).isNull

theorem defaultless_lawful : defaultless.Lawful where
  plain name listed := by
    obtain rfl : name = "default" := List.mem_singleton.mp listed
    rfl
  apart := by decide
  more fields applies := by
    refine ⟨"type", by decide, by decide, ?_⟩
    cases found : fields.lookup "type" with
    | some v => rfl
    | none => simp [defaultless, found] at applies
  stable x y same := by
    have type := same "type" (by decide)
    have const := same "const" (by decide)
    have enum := same "enum" (by decide)
    rw [map_under rfl, map_under rfl] at type const enum
    simp only [defaultless, type, const, enum]

end Omission

theorem Node.defaultless_fits : Ingestion.Fits Omission.defaultless Node.SameButDefault where
  equivalence := {
    refl n := ⟨⟨n.default, rfl⟩, .inl rfl⟩
    symm := by
      rintro n _ ⟨⟨default, rfl⟩, plural⟩
      refine ⟨⟨n.default, rfl⟩, plural.imp Eq.symm ?_⟩
      exact fun ⟨types, plural⟩ => ⟨types, { plural with }⟩
    trans := by
      rintro n _ _ ⟨⟨_, rfl⟩, first⟩ ⟨⟨default, rfl⟩, next⟩
      refine ⟨⟨default, rfl⟩, ?_⟩
      rcases next with same | ⟨types, plural⟩
      · exact first.imp_left same.trans
      · exact .inr ⟨types, { plural with }⟩ }
  node x y parent n same given := by
    have plain (name : String) (noSchema : schemaKeywords.lookup name = none) :=
      Omission.defaultless_lawful.plain_eq same noSchema
    have agree (name : String) (noSchema : schemaKeywords.lookup name = none)
        (other : name ≠ "default") : y.lookup name = x.lookup name :=
      (plain name noSchema).resolve_right fun omitted => other (List.mem_singleton.mp omitted.1)
    have filled := n.filled_agree parent fun name noSchema other =>
      agree name noSchema fun same => other (by simp [same])
    rw [filled, agree "minItems" rfl (by decide), agree "maxItems" rfl (by decide)]
    refine ⟨⟨_, rfl⟩, ?_⟩
    rcases plain "default" rfl with same | ⟨_, applies⟩
    · rw [same]
      exact .inl rfl
    · right
      simp only [Omission.defaultless, Bool.and_eq_true, Option.isNone_iff_eq_none] at applies
      obtain ⟨⟨several, const⟩, enum⟩ := applies
      split at several
      · rename_i types type
        refine ⟨types, ?_, of_decide_eq_true several, const, ?_⟩
        · simp [Node.filled, type]
        · cases given : (x.lookup "enum").getD .null with
          | null => exact given
          | _ => rw [given] at enum; cases enum
      · cases several

namespace Build

/-- Graphs whose nodes of several types differ in their defaults are normalized alike. -/
theorem normalizedAlike_of_defaults (kindred : g.Kindred Node.SameButDefault h) :
    NormalizedAlike Node.SameButMute options fileName root g h := by
  have together := Graph.normalize_sameButDefault root options fileName kindred
  unfold NormalizedAlike
  generalize Graph.normalize options fileName root g = x at together ⊢
  generalize Graph.normalize options fileName root h = y at together ⊢
  cases together with
  | error e f g' h' => exact .inr ⟨e, f, g', h', rfl, rfl⟩
  | @ok _ g' h' abreast =>
    refine .inl ⟨fun _ => True, g', h', rfl, rfl, ⟨abreast.size, fun i => ?_, fun i _ => ?_,
      fun i _ s _ => s.among_all, fun _ _ => trivial⟩, trivial⟩
    · obtain ⟨⟨default, same⟩, _⟩ := abreast.node i trivial
      rw [same]
      exact ⟨rfl, rfl, rfl, rfl⟩
    · obtain ⟨⟨default, same⟩, plural⟩ := abreast.node i trivial
      refine ⟨⟨default, same⟩, plural.imp_right fun ⟨types, plural⟩ => ?_⟩
      have several : (g'.node i).type.isArr = true := by
        rw [plural.type]
        rfl
      exact ⟨.inl several, .inl (by rw [same]; exact several)⟩

/-- Documents that differ in defaults that are left out are compiled to the same types, or both
fail. -/
theorem compile_defaultless (options : Options) (fileName : Option String)
    (same : Omission.defaultless.document d = Omission.defaultless.document e) :
    (∃ t b c, compile d options ({ fileName } : Builder) = .ok t b ∧
      compile e options ({ fileName } : Builder) = .ok t c ∧ c.types = b.types) ∨
    ∃ f f' b c, compile d options ({ fileName } : Builder) = .error f b ∧
      compile e options ({ fileName } : Builder) = .error f' c := by
  have likewise : Likewise Eq (compile d options ({ fileName } : Builder))
      (compile e options ({ fileName } : Builder)) :=
    likewise_compile Omission.defaultless_lawful Node.defaultless_fits Node.sameButMute_kinship
      same fun _ _ _ _ _ kindred => normalizedAlike_of_defaults kindred
  rcases likewise with ⟨t, b, c, here, there, akin⟩ | failed
  · exact .inl ⟨t, b, c, here, there, akin.eq⟩
  · exact .inr failed

end Build

end LinkedSchema
