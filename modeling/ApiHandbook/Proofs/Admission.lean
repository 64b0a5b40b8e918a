import ApiHandbook.Proofs.ByteOrder
import ApiHandbook.Proofs.Case
import ApiHandbook.Service

/-! Who may read the data. Digests are compared byte by byte, and match exactly when they are equal up to the case of
letters; a request without the digest learns nothing about the application. -/
namespace ApiHandbook
open Text

namespace Text

/-- The byte of a small letter for the byte of a capital, and any other byte itself. -/
def lowerByte (b : UInt8) : UInt8 := if 65 ≤ b && b ≤ 90 then b + 32 else b

theorem toList_eq_data (bs : ByteArray) : bs.toList = bs.data.toList := by
  have run (i : Nat) (seen : List UInt8) :
      ByteArray.toList.loop bs i seen = seen.reverse ++ bs.data.toList.drop i := by
    fun_induction ByteArray.toList.loop bs i seen with
    | case1 i seen h ih =>
      have hget : bs.get! i = bs.data.toList[i] := by
        simp [ByteArray.get!, getElem!_pos, h]
      rw [ih, List.reverse_cons, List.append_assoc, hget, List.drop_eq_getElem_cons (i := i) (by simpa using h)]
      rfl
    | case2 i seen h =>
      rw [List.drop_eq_nil_of_le (by simpa using h), List.append_nil]
  exact run 0 []

theorem bytes_injective {s t : String} (h : bytes s = bytes t) : s = t :=
  String.toByteArray_inj.mp (ByteArray.ext (Array.toList_inj.mp h))

theorem lowerByte_ofNat {n : Nat} (h : n < 256) :
    lowerByte (UInt8.ofNat n) = UInt8.ofNat (if 65 ≤ n ∧ n ≤ 90 then n + 32 else n) := by
  have hle (k : Nat) (hk : k < 256) :
      (UInt8.ofNat k ≤ UInt8.ofNat n ↔ k ≤ n) ∧ (UInt8.ofNat n ≤ UInt8.ofNat k ↔ n ≤ k) := by
    simp only [UInt8.le_iff_toNat_le, UInt8.toNat_ofNat', Nat.mod_eq_of_lt hk, Nat.mod_eq_of_lt h, and_self]
  have hcond : (65 ≤ UInt8.ofNat n && UInt8.ofNat n ≤ 90) = true ↔ 65 ≤ n ∧ n ≤ 90 := by
    rw [Bool.and_eq_true, decide_eq_true_iff, decide_eq_true_iff]
    exact and_congr (hle 65 (by decide)).1 (hle 90 (by decide)).2
  rw [lowerByte]
  split_ifs with hb hn hn
  · exact (UInt8.ofNat_add n 32).symm
  · exact absurd (hcond.mp hb) hn
  · exact absurd (hcond.mpr hn) hb
  · rfl

theorem map_lowerByte_utf8EncodeChar (c : Char) :
    (String.utf8EncodeChar c).map lowerByte = String.utf8EncodeChar c.toLower := by
  have hl : c.toLower.val.toNat = if 65 ≤ c.val.toNat ∧ c.val.toNat ≤ 90 then c.val.toNat + 32 else c.val.toNat :=
    toNat_toLower c
  simp only [String.utf8EncodeChar, hl]
  generalize c.val.toNat = n
  by_cases hn : n ≤ 127
  · rw [if_pos hn, if_pos (by split_ifs <;> omega), List.map_singleton, lowerByte_ofNat (by omega)]
  · have hu : ¬ (65 ≤ n ∧ n ≤ 90) := by omega
    rw [if_neg hn, if_neg hu, if_neg hn]
    split_ifs <;>
      simp only [List.map_cons, List.map_nil] <;>
      (repeat rw [lowerByte_ofNat (by omega)]) <;>
      simp (disch := omega) only [if_neg]

theorem map_lowerByte_bytes (s : String) : (bytes s).map lowerByte = bytes (mapped asciiLower s) := by
  rw [bytes_eq_flatMap, bytes_eq_flatMap, mapped, String.toList_ofList, asciiLower, List.map_flatMap, List.flatMap_map]
  exact List.flatMap_congr fun c _ => map_lowerByte_utf8EncodeChar c

/-- Texts are equal up to the case of ASCII letters when their bytes are, up to those of ASCII letters. -/
theorem map_lowerByte_eq_iff (s t : String) :
    (bytes s).map lowerByte = (bytes t).map lowerByte ↔ sameIgnoringCase s.toList t.toList = true := by
  rw [map_lowerByte_bytes, map_lowerByte_bytes, sameIgnoringCase, beq_iff_eq]
  constructor
  · intro h
    simpa [mapped] using congrArg String.toList (bytes_injective h)
  · intro h
    rw [mapped, mapped, h]

end Text

theorem byteDifference_eq_zero_iff (a b : UInt8) : byteDifference a b = 0 ↔ lowerByte a = lowerByte b :=
  UInt8.xor_eq_zero_iff

/-- The differences gathered so far stay zero only as long as every pair of bytes agrees. -/
theorem foldl_byteDifference_eq_zero_iff (pairs : List (UInt8 × UInt8)) (seen : UInt8) :
    pairs.foldl (fun seen (a, b) => seen ||| byteDifference a b) seen = 0 ↔
      seen = 0 ∧ (pairs.map Prod.fst).map lowerByte = (pairs.map Prod.snd).map lowerByte := by
  induction pairs generalizing seen with
  | nil => simp
  | cons p pairs ih =>
    rw [List.foldl_cons, ih, UInt8.or_eq_zero_iff, byteDifference_eq_zero_iff, List.map_cons, List.map_cons,
      List.map_cons, List.map_cons, List.cons.injEq, and_assoc]

/-- The supplied digest is trimmed before it is compared. -/
theorem digestsMatch_iff (supplied expected : String) :
    digestsMatch supplied expected = true ↔ sameIgnoringCase (trim supplied.toList) expected.toList = true := by
  have hbytes (s : String) : s.toUTF8.toList = bytes s := toList_eq_data _
  have htrim : (mapped trim supplied).toList = trim supplied.toList := String.toList_ofList
  rw [digestsMatch, hbytes, hbytes, ← htrim, ← map_lowerByte_eq_iff, Bool.and_eq_true, beq_iff_eq, beq_iff_eq,
    foldl_byteDifference_eq_zero_iff]
  constructor
  · rintro ⟨hl, -, hm⟩
    rwa [List.map_fst_zip hl.le, List.map_snd_zip hl.ge] at hm
  · intro h
    have hl : (bytes (mapped trim supplied)).length = (bytes expected).length := by
      simpa using congrArg List.length h
    exact ⟨hl, rfl, by rwa [List.map_fst_zip hl.le, List.map_snd_zip hl.ge]⟩

/-- Whether a request carries a digest: in the first header of that name, up to blanks around it and the case of
letters. -/
def Request.Carries (r : Request) (digest : String) : Prop :=
  ∃ supplied, r.header? passwordHeader = some supplied ∧
    sameIgnoringCase (trim supplied.toList) digest.toList = true

namespace Settings
variable {settings : Settings} {digest : String}

theorem isDigest_of_validate (h : settings.validate = .ok ()) (hd : settings.passwordDigest = some digest) :
    isDigest digest = true := by
  rw [validate] at h
  split at h
  · cases h
  · split at h
    · cases h
    · split at h
      · rename_i hdigest
        rwa [hd, Option.all_some] at hdigest
      · cases h

theorem admits_iff (hv : settings.validate = .ok ()) (hd : settings.passwordDigest = some digest) (request : Request) :
    settings.admits request = true ↔ request.Carries digest := by
  simp only [admits, hd, digestsMatch_iff, Request.Carries]
  cases request.header? passwordHeader with
  | some supplied => simp
  | none =>
    -- No digest is empty, so that a missing header is no digest.
    have hdigest := isDigest_of_validate hv hd
    refine iff_of_false (fun h => ?_) (by simp)
    have hnil : digest.toList = [] := by
      simpa [sameIgnoringCase, asciiLower, trim, trimStart, trimEnd, dropEndWhile] using h
    rw [isDigest, hnil] at hdigest
    exact absurd hdigest (by decide)

theorem serve_eq_answer (hv : settings.validate = .ok ()) (request : Request) (source : RouteSource) :
    settings.serve request source = .ok (settings.answer request source) := by
  rw [serve, hv]
  rfl

theorem answer_of_not_admits {request : Request} (h : settings.admits request = false) (source : RouteSource) :
    settings.answer request source = match settings.endpointAt? request.path with
      | some .index => ⟨200, "text/html; charset=utf-8", Page.index settings⟩
      | some .data => .refusal 401 "Unauthorized"
      | none => .refusal 404 "Not Found" := by
  rw [answer]
  cases settings.endpointAt? request.path with
  | none => rfl
  | some endpoint =>
    cases endpoint with
    | index => rfl
    | data => simp [answerData, h]

theorem refusal_unauthorized :
    Response.refusal 401 "Unauthorized" = ⟨401, "application/json", "\x7b\"error\":\"Unauthorized\"\x7d"⟩ := by
  decide

/-- Under a password, the answer to a request without the digest does not depend on the application, and the data is
refused; with the digest the data is the payload of the application. Digests match exactly when they are as long as each
other and equal up to case, after the supplied one is trimmed. -/
theorem serve_of_digest (hv : settings.validate = .ok ()) (hd : settings.passwordDigest = some digest)
    (request : Request) :
    (¬ request.Carries digest →
      (∀ a b : RouteSource, settings.serve request a = settings.serve request b) ∧
      (settings.endpointAt? request.path = some .data → ∀ source : RouteSource,
        settings.serve request source = .ok ⟨401, "application/json", "\x7b\"error\":\"Unauthorized\"\x7d"⟩)) ∧
    (request.Carries digest → settings.endpointAt? request.path = some .data → ∀ source : RouteSource,
      settings.serve request source = .ok ⟨200, "application/json",
        (Payload.build settings (Aggregate.build settings source) (request.header? "Referer")).text⟩) ∧
    ∀ supplied expected : String, digestsMatch supplied expected = true ↔
      (mapped trim supplied).utf8ByteSize = expected.utf8ByteSize ∧
        sameIgnoringCase (trim supplied.toList) expected.toList = true := by
  have hadmits := admits_iff hv hd request
  refine ⟨fun hcarries => ?_, fun hcarries hdata source => ?_, fun supplied expected => ?_⟩
  · have hnot : settings.admits request = false := Bool.eq_false_iff.mpr fun h => hcarries (hadmits.mp h)
    refine ⟨fun a b => ?_, fun hdata source => ?_⟩
    · rw [serve_eq_answer hv, serve_eq_answer hv, answer_of_not_admits hnot, answer_of_not_admits hnot]
    · rw [serve_eq_answer hv, answer_of_not_admits hnot, hdata]
      exact congrArg Except.ok refusal_unauthorized
  · rw [serve_eq_answer hv, answer, hdata]
    simp only [answerData, hadmits.mpr hcarries, if_true]
    rfl
  · rw [digestsMatch_iff, iff_and_self]
    intro h
    have hbytes := (map_lowerByte_eq_iff (mapped trim supplied) expected).mpr (by rwa [mapped, String.toList_ofList])
    have hlength := congrArg List.length hbytes
    rwa [List.length_map, List.length_map] at hlength

/-- The digest opens the data, in any case of its letters and with a query behind the path. -/
theorem serve_shop :
    let digest := "0123456789abcdef0123456789abcdef0123456789abcdef0123456789abcdef"
    let settings : Settings := { member := ["shop"], passwordDigest := some digest }
    let request : Request :=
      ⟨"/docs/api/data?t=1", [("auth-password-sha2", " 0123456789ABCDEF0123456789ABCDEF0123456789ABCDEF0123456789ABCDEF")]⟩
    let source := (Application.ofRegistrations
      [.routeWithEndpoint "/goods" ["get"] "shop.list_all" { name := "list_all" }]).source
    settings.validate = .ok () ∧ request.Carries digest ∧
      settings.serve request source = .ok ⟨200, "application/json",
        (Payload.build settings (Aggregate.build settings source) none).text⟩ ∧
      settings.serve ⟨"/docs/api/data", []⟩ source =
        .ok ⟨401, "application/json", "\x7b\"error\":\"Unauthorized\"\x7d"⟩ := by
  intro digest settings request source
  have hv : settings.validate = .ok () := by decide
  have hcarries : request.Carries digest := ⟨_, rfl, by decide⟩
  exact ⟨hv, hcarries, (serve_of_digest hv rfl request).2.1 hcarries (by decide) source,
    ((serve_of_digest hv rfl ⟨"/docs/api/data", []⟩).1 (by rintro ⟨_, h, -⟩; cases h)).2 (by decide) source⟩

end Settings
end ApiHandbook
