import TraceContainer.Json.Document
import TraceContainer.Proofs.Json.Assembly
import TraceContainer.Proofs.Json.Integer

namespace TraceContainer.Json

/-- Every value that is not too deep is read back from its document, each number as it is read from
its own spelling and the members of each object in order. -/
theorem decode?_encode_reread {value : Json} (shallow : value.depth ≤ Assembly.maxDepth) :
    decode? value.encode = some value.reread.sorted := by
  have legible : Token.Legible value.tokens := by
    have nothing : Token.Legible [] := trivial
    have alone := @legible_tokens value [] nothing rfl
    rwa [List.append_nil] at alone
  have utf8 : String.fromUTF8? value.text.toUTF8 = some value.text :=
    dif_pos value.text.isValidUTF8
  rw [decode?, encode, utf8, Option.bind_eq_bind, Option.bind_some, ofText?, text,
    String.toList_ofList, Token.read?_spelling legible, Option.bind_eq_bind, Option.bind_some,
    Assembly.run?_tokens shallow]

theorem decode?_encode {value : Json} (integral : value.Integral)
    (shallow : value.depth ≤ Assembly.maxDepth) : decode? value.encode = some value.sorted := by
  rw [decode?_encode_reread shallow, reread_of_integral integral]

/-- A value that can be read back as a member of an object. -/
def Readable (value : Json) : Prop :=
  value.Integral ∧ value.depth < Assembly.maxDepth

instance (value : Json) : Decidable value.Readable :=
  inferInstanceAs (Decidable (value.Integral ∧ value.depth < Assembly.maxDepth))

theorem depth_object_le {members : Members}
    (shallow : ∀ member ∈ members, member.2.depth < Assembly.maxDepth) :
    depth (.object members) ≤ Assembly.maxDepth := by
  have inside : memberDepth members ≤ Assembly.maxDepth - 1 :=
    memberDepth_le.mpr fun member present => Nat.le_sub_one_of_lt (shallow member present)
  exact Nat.succ_le_succ inside

theorem ordered_of_decode? {payload : ByteArray} {value : Json}
    (decoded : decode? payload = some value) : value.Ordered ∧ value.depth ≤ Assembly.maxDepth := by
  obtain ⟨text, _, ofText⟩ := Option.bind_eq_some_iff.mp decoded
  obtain ⟨tokens, _, assembled⟩ := Option.bind_eq_some_iff.mp ofText
  exact Assembly.ordered_of_run? assembled

/-- A member of an object that was read leaves room for the object around it. -/
theorem ordered_of_present? {members : Members} {key : String} {value : Json}
    (sound : Ordered (.object members) ∧ depth (.object members) ≤ Assembly.maxDepth)
    (present : Members.present? members key = some value) :
    value.Ordered ∧ value.depth < Assembly.maxDepth := by
  have inside := Members.mem_of_present? present
  have ordered := (ordered_object.mp sound.1).2 _ inside
  have shallow := memberDepth_le.mp (Nat.le_refl (memberDepth members)) _ inside
  exact ⟨ordered, Nat.lt_of_le_of_lt shallow sound.2⟩

theorem ordered_of_objectOrEmpty {members object : Members} {key : String}
    (sound : Ordered (.object members) ∧ depth (.object members) ≤ Assembly.maxDepth)
    (held : Members.ObjectOrEmpty members key object) :
    Ordered (.object object) ∧ depth (.object object) < Assembly.maxDepth := by
  rcases held with present | ⟨_, rfl⟩
  · exact ordered_of_present? sound present
  · exact ⟨ordered_object.mpr ⟨Members.ascending_nil, nofun⟩, by decide⟩

end TraceContainer.Json
