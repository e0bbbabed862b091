import TraceContainer.Proofs.DetailText
import TraceContainer.Proofs.ManifestText

/-! Manifests and details whose numbers need not be integers, encoded and read again. A binary64 is
written with the fewest digits that determine it, but these are scaled in binary64 when they are
read, and rounded at each step. So it comes back near what it was, and with few digits near the
point as it was. -/
namespace TraceContainer

/-- Whatever manifest or detail a payload is read as, encoding and reading again keeps all of it but
the binary64 numbers, each of which is replaced by what its own spelling is read as, wherever it
stands. This is a number of the same sign and near the one spelled; it has the same bits if that is
zero or has no more than fifteen digits near the point. A manifest survives exactly if all its
numbers do, and so does a detail. -/
theorem reals_reencoded (decoder again : Json.Decoder) (payload : ByteArray)
    (offset other : Int64) :
    (∀ manifest, Manifest.decode decoder payload = .ok manifest →
      Manifest.decode again manifest.encode = .ok manifest.reread ∧
        (manifest.survives again = true ↔ Json.Reproduced (.object manifest.metadata))) ∧
    (∀ detail, Detail.decode decoder payload offset = .ok detail →
      Detail.decode again detail.encode other = .ok detail.reread ∧
        (Detail.decode again detail.encode other = .ok detail ↔
          Json.Reproduced (.object detail.arguments) ∧
          (∀ value ∈ detail.returnValue, Json.Reproduced value) ∧
          Json.Reproduced (.object detail.metadata))) ∧
    ∀ real : Binary64, real.Near real.reread ∧
      (real.isZero = true ∨ (Decimal.shortest real).Plain → real.reread.toBits = real.toBits) := by
  refine ⟨fun manifest decoded => ?_, fun detail decoded => ?_,
    fun real => ⟨real.near_reread, ?_⟩⟩
  · have reread : Manifest.decode again manifest.encode = .ok manifest.reread :=
      Manifest.decode_encode_reread (Manifest.wellFormed_of_decode decoded)
    refine ⟨reread, ?_⟩
    rw [Manifest.survives, reread, decide_eq_true_iff, Manifest.reread_eq_self_iff]
  · have reread : Detail.decode again detail.encode other = .ok detail.reread :=
      Detail.decode_encode_reread (Detail.wellFormed_of_decode decoded) other
    refine ⟨reread, ?_⟩
    rw [reread, Except.ok.injEq, Detail.reread_eq_self_iff]
  · rintro (zero | plain)
    · rw [Binary64.reread_zero (beq_iff_eq.mp zero)]
    · rw [Binary64.reread_plain plain]

def Manifest.holding (real : Binary64) : Manifest where
  metadata := [("x", .number (.real real))]
  timeRange := .zero
  threadIds := []
  eventCount := 0

def Detail.holding (argument returned : Binary64) : Detail where
  event := ⟨5, 2, 3, .functionExit, -1, 0⟩
  callStack := []
  arguments := [("x", .number (.real argument))]
  returnValue := some (.number (.real returned))
  metadata := []

def Binary64.tenth : Binary64 :=
  ⟨false, 7205759403792794, -56, by decide, .inr (by decide)⟩

def tenthPayload : ByteArray :=
  "\x7b\"metadata\":\x7b\"x\":0.1\x7d\x7d".toUTF8

def tenthCallPayload : ByteArray :=
  ("\x7b\"index_event\":\x7b\"event_type\":1,\"timestamp_ns\":5,\"thread_id\":2," ++
    "\"function_id\":3\x7d,\"arguments\":\x7b\"x\":0.1\x7d,\"return_value\":-0.0\x7d").toUTF8

theorem reals_reencoded_tenth :
    let decoder : Json.Decoder := .saying "expected value"
    Manifest.decode decoder tenthPayload = .ok (.holding .tenth) ∧
      (Manifest.holding .tenth).survives decoder = true ∧
      Detail.decode decoder tenthCallPayload (-1) = .ok (.holding .tenth (.zero true)) ∧
      Detail.decode decoder (Detail.holding .tenth (.zero true)).encode 9 =
        .ok (.holding .tenth (.zero true)) := by
  intro decoder
  obtain ⟨manifests, _, reals⟩ := reals_reencoded decoder decoder tenthPayload 0 0
  obtain ⟨_, details, _⟩ := reals_reencoded decoder decoder tenthCallPayload (-1) 9
  have decoded : Manifest.decode decoder tenthPayload = .ok (.holding .tenth) :=
    eq_ok_of_toOption (by decide +kernel)
  have decodedCall : Detail.decode decoder tenthCallPayload (-1) =
      .ok (.holding .tenth (.zero true)) :=
    eq_ok_of_toOption (by decide +kernel)
  have plain : (Decimal.shortest .tenth).Plain :=
    ⟨by decide +kernel, by decide +kernel, by decide +kernel⟩
  have tenth : Json.Reproduced (.object [("x", .number (.real .tenth))]) :=
    Json.reproduced_object.mpr
      (List.forall_mem_singleton.mpr (Json.reproduced_real.mpr ((reals .tenth).2 (.inr plain))))
  have zero := Json.reproduced_real.mpr ((reals (.zero true)).2 (.inl rfl))
  have nothing : Json.Reproduced (.object []) := Json.reproduced_object.mpr nofun
  refine ⟨decoded, (manifests _ decoded).2.mpr tenth, decodedCall,
    (details _ decodedCall).2.mpr ⟨tenth, ?_, nothing⟩⟩
  rintro value ⟨⟩
  exact zero

/-- Fifteen digits that fill the sixteen places before the point: with the zero behind the point
they are more than binary64 numbers hold, and are rounded before they are scaled. -/
def alteredPayload : ByteArray :=
  "\x7b\"metadata\":\x7b\"x\":3.70000000000001e15\x7d\x7d".toUTF8

/-- What is read is 3700000000000010, and what is read again is 3700000000000009.5. -/
theorem reals_reencoded_altered :
    let decoder : Json.Decoder := .saying "expected value"
    ∃ real again : Binary64,
      real.toBits = 0x432a4a42c3568014 ∧ again.toBits = 0x432a4a42c3568013 ∧
      Manifest.decode decoder alteredPayload = .ok (.holding real) ∧
      Manifest.decode decoder (Manifest.holding real).encode = .ok (.holding again) := by
  intro decoder
  refine ⟨⟨false, 7400000000000020, -1, by decide, .inr (by decide)⟩,
    ⟨false, 7400000000000019, -1, by decide, .inr (by decide)⟩,
    by decide +kernel, by decide +kernel, ?_, ?_⟩
  · exact eq_ok_of_toOption (by decide +kernel)
  · exact eq_ok_of_toOption (by decide +kernel)

end TraceContainer
