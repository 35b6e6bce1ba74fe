import LinkedSchema.Proofs.Normalize.Normal
/-! Rules leave the fields of a node of the types that they are declared with, and no rule changes
whether a node describes arrays. -/
namespace LinkedSchema

variable {n m : Node} {options : Options} {rule : Rule} {rules : List Rule} {name : String}

/-- A node whose fields are still of the types that they are declared with, and that describes
arrays if another one does. -/
structure Node.Resembles (m n : Node) : Prop where
  typed : m.Typed
  array : m.isArrayLike = n.isArrayLike

namespace Rule

variable (n) in
theorem hasType_dropNullType (other : name ≠ "null") :
    (dropNullType n).hasType name = n.hasType name := by
  unfold dropNullType
  split
  · rename_i types list
    split
    · have kept : ∀ v : Json, v.isStr name = true → v.isStr "null" = false := by
        intro v named
        cases v with
        | str text =>
          have same : text = name := by simpa [Json.isStr] using named
          simpa [Json.isStr, same] using other
        | _ => cases named
      rw [Bool.eq_iff_iff]
      simp only [Node.hasType, list, List.any_eq_true, List.mem_filter, Bool.not_eq_true']
      constructor
      · rintro ⟨v, ⟨listed, _⟩, named⟩
        exact ⟨v, listed, named⟩
      · rintro ⟨v, listed, named⟩
        exact ⟨v, ⟨listed, kept v named⟩, named⟩
    · rfl
  · rfl

variable (name) in
theorem hasType_unwrapSingleType (names : n.type.NamesTypes) :
    (unwrapSingleType n).hasType name = n.hasType name := by
  unfold unwrapSingleType
  split
  · rename_i type single
    rw [single] at names
    have text : type.isText = true := names type List.mem_cons_self
    cases type with
    | str s => simp [Node.hasType, single]
    | _ => cases text
  · rfl

theorem resembles_dropNullType (typed : n.Typed) : (dropNullType n).Resembles n := by
  have array := hasType_dropNullType n (show "array" ≠ "null" by decide)
  have any := hasType_dropNullType n (show "any" ≠ "null" by decide)
  obtain ⟨type, made, names, _⟩ := dropNullType_spec n
  rw [made] at array any ⊢
  exact ⟨{ typed with type := names typed.type }, by simp only [Node.isArrayLike, array, any]⟩

theorem resembles_unwrapSingleType (typed : n.Typed) : (unwrapSingleType n).Resembles n := by
  have array := hasType_unwrapSingleType "array" typed.type
  have any := hasType_unwrapSingleType "any" typed.type
  have names : (unwrapSingleType n).type.NamesTypes := by
    have given := typed.type
    unfold unwrapSingleType
    split
    · rename_i type single
      rw [single] at given
      have text : type.isText = true := given type List.mem_cons_self
      cases type with
      | str s => trivial
      | _ => cases text
    · exact given
  obtain ⟨type, made, _⟩ := unwrapSingleType_spec n
  rw [made] at array any names ⊢
  exact ⟨{ typed with type := names }, by simp only [Node.isArrayLike, array, any]⟩

theorem resembles_escapeDescription (typed : n.Typed) : (escapeDescription n).Resembles n := by
  obtain ⟨description, made, filled, _⟩ := escapeDescription_spec typed.description
  rw [made]
  exact ⟨{ typed with description := filled }, rfl⟩

theorem resembles_documentBounds (typed : n.Typed) (made : documentBounds n = .ok m) :
    m.Resembles n := by
  unfold documentBounds at made
  split at made
  · cases made
    exact ⟨typed, rfl⟩
  · split at made
    · cases made
    · dsimp only at made
      split at made
      · cases made
        exact ⟨typed, rfl⟩
      · cases made
        exact ⟨{ typed with description := .inr rfl }, rfl⟩

theorem resembles_stripBounds (typed : n.Typed) : (stripBounds options n).Resembles n := by
  unfold stripBounds
  split
  · exact ⟨{ typed with minItems := .inl rfl, maxItems := .inl rfl }, rfl⟩
  · exact ⟨typed, rfl⟩

theorem resembles_defaultMinItems (typed : n.Typed) : (defaultMinItems n).Resembles n := by
  unfold defaultMinItems
  split
  · exact ⟨{ typed with minItems := .inr rfl }, rfl⟩
  · exact ⟨typed, rfl⟩

theorem resembles_dropWideMaxItems (typed : n.Typed) (made : dropWideMaxItems options n = .ok m) :
    m.Resembles n := by
  obtain ⟨maxItems, rfl, rfl | rfl, _⟩ :=
    dropWideMaxItems_spec typed.minItems typed.maxItems made
  · exact ⟨typed, rfl⟩
  · exact ⟨{ typed with maxItems := .inl rfl }, rfl⟩

theorem resembles_expandItems (typed : n.Typed) (made : expandItems n = .ok m) :
    m.Resembles n := by
  obtain ⟨items, additionalItems, rfl, alike, _⟩ := expandItems_spec made
  exact ⟨{ typed with }, by simp only [Node.isArrayLike, alike, Node.hasType]⟩

theorem resembles_of_rule (listed : rule ∈ all) (typed : n.Typed)
    (made : rule.apply options n = .ok m) : m.Resembles n := by
  simp only [all, List.mem_cons, List.not_mem_nil, or_false] at listed
  rcases listed with rfl | rfl | rfl | rfl | rfl | rfl | rfl | rfl | rfl | rfl | rfl | rfl | rfl |
    rfl | rfl
  · cases made
    exact resembles_dropNullType typed
  · cases made
    exact resembles_unwrapSingleType typed
  · obtain ⟨required, same, _⟩ := defaultRequired_spec n
    cases made
    exact same ▸ ⟨{ typed with }, rfl⟩
  · obtain ⟨required, same, _⟩ := listRequired_spec n
    cases made
    exact same ▸ ⟨{ typed with }, rfl⟩
  · obtain ⟨additional, same, _⟩ := defaultAdditionalProperties_spec n
    cases made
    exact same ▸ ⟨{ typed with }, rfl⟩
  · obtain ⟨id, legacyId, rfl, _⟩ := moveLegacyId_spec made
    exact ⟨{ typed with }, rfl⟩
  · cases made
    exact resembles_escapeDescription typed
  · exact resembles_documentBounds typed made
  · cases made
    exact resembles_stripBounds typed
  · cases made
    exact resembles_defaultMinItems typed
  · exact resembles_dropWideMaxItems typed made
  · exact resembles_expandItems typed made
  · obtain ⟨bases, same, _⟩ := dropEmptyBases_spec n
    cases made
    exact same ▸ ⟨{ typed with }, rfl⟩
  · obtain ⟨bases, same, _⟩ := listBases_spec n
    cases made
    exact same ▸ ⟨{ typed with }, rfl⟩
  · obtain ⟨enum, same, _⟩ := constToEnum_spec n
    cases made
    exact same ▸ ⟨{ typed with }, rfl⟩

/-- What a pass makes of a node is still typed, and describes arrays if the node did. -/
theorem resembles_of_pass (listed : ∀ rule ∈ rules, rule ∈ all) (typed : n.Typed)
    (made : pass rules options n = .ok m) : m.Resembles n := by
  induction rules generalizing n with
  | nil =>
    cases made
    exact ⟨typed, rfl⟩
  | cons rule rules ih =>
    obtain ⟨k, first, rest⟩ := bind_ok (pass_cons.symm.trans made)
    have here := resembles_of_rule (listed rule List.mem_cons_self) typed first
    have later := ih (fun r hr => listed r (List.mem_cons_of_mem _ hr)) here.typed rest
    exact ⟨later.typed, later.array.trans here.array⟩

end Rule
end LinkedSchema
