import ApiManual.Proofs.Source.Declaring
import ApiManual.Route.Describe
import Mathlib.InformationTheory.Coding.UniquelyDecodable
import Mathlib.Order.Antichain

/-!
# The identity of a route

The id of a route is a digest of its key, in which the methods follow the URI without anything between them. As the
names of methods hold no colon, the last colon of the key ends the URI (`append_colon_inj`), and as none of them
begins with another one, they are parted again behind it (`join_inj`).

* `utf8_inj`, `Md5.hex_inj`: the bytes tell a text, and the digits of a digest tell its bytes.
* `uniquelyDecodable_of_isAntichain`: a prefix code can be decoded.
* `routeKey_eq_iff`: keys tell routes apart, so two routes with one id are the same or their keys collide.
-/

namespace ApiManual

open InformationTheory

/-! ## Bytes -/

/-- What is read already stands in front, the last byte first. -/
theorem bytes_toList_loop (bytes : ByteArray) (i : Nat) (front : List UInt8) :
    ByteArray.toList.loop bytes i front = front.reverse ++ bytes.data.toList.drop i := by
  induction i, front using ByteArray.toList.loop.induct bytes with
  | case1 i front hlt ih =>
    have hcut : bytes.data.toList.drop i = bytes.data[i] :: bytes.data.toList.drop (i + 1) := by
      rw [List.drop_eq_getElem_cons (by simpa using hlt), Array.getElem_toList]
    have hget : bytes.get! i = bytes.data[i] := getElem!_pos bytes.data i hlt
    rw [ByteArray.toList.loop, if_pos hlt, ih, hcut, hget, List.reverse_cons, List.append_assoc, List.singleton_append]
  | case2 i front hge =>
    have hend : bytes.data.toList.drop i = [] := List.drop_of_length_le (by simpa using hge)
    rw [ByteArray.toList.loop, if_neg hge, hend, List.append_nil]

theorem utf8_inj {s t : String} : s.toUTF8.toList = t.toUTF8.toList ↔ s = t := by
  have hdata : ∀ bytes : ByteArray, bytes.toList = bytes.data.toList := fun bytes => bytes_toList_loop bytes 0 []
  rw [hdata, hdata, Array.toList_inj, ← ByteArray.ext_iff]
  exact String.toByteArray_inj

namespace Md5

/-- Two messages collide if they differ and have one digest. -/
def Collide (message message' : List UInt8) : Prop := message ≠ message' ∧ digest message = digest message'

theorem hexByte_inj {b b' : UInt8} : hexByte b = hexByte b' ↔ b = b' := by
  have hdigit : ∀ m < 16, ∀ n < 16, Nat.digitChar m = Nat.digitChar n → m = n := by decide
  refine ⟨fun h => ?_, congrArg hexByte⟩
  have hb := b.toNat_lt
  have hb' := b'.toNat_lt
  rw [hexByte, hexByte, List.cons.injEq, List.cons.injEq] at h
  have hhigh := hdigit (b.toNat / 16) (by omega) (b'.toNat / 16) (by omega) h.1
  have hlow := hdigit (b.toNat % 16) (by omega) (b'.toNat % 16) (by omega) h.2.1
  exact UInt8.toNat_inj.mp (by omega)

theorem flatMap_hexByte_inj {bytes bytes' : List UInt8} :
    bytes.flatMap hexByte = bytes'.flatMap hexByte ↔ bytes = bytes' := by
  refine ⟨fun h => ?_, congrArg _⟩
  induction bytes generalizing bytes' with
  | nil =>
    cases bytes' with
    | nil => rfl
    | cons b' bytes' => cases h
  | cons b bytes ih =>
    cases bytes' with
    | nil => cases h
    | cons b' bytes' =>
      obtain ⟨hb, hbytes⟩ := List.append_inj h rfl
      rw [hexByte_inj.mp hb, ih hbytes]

theorem hex_inj {message message' : List UInt8} : hex message = hex message' ↔ digest message = digest message' := by
  rw [hex, hex, String.ofList_inj, flatMap_hexByte_inj]

end Md5

/-! ## Names that follow one another -/

section Codes

variable {α : Type} {S : Set (List α)}

/-- Of two equal texts that begin with words of a prefix code, the words are equal. -/
theorem word_eq_of_append_eq {word word' rest rest' : List α} (hS : IsAntichain (· <+: ·) S) (hword : word ∈ S)
    (hword' : word' ∈ S) (h : word ++ rest = word' ++ rest') : word = word' := by
  have hfront : word <+: word' ++ rest' := h ▸ List.prefix_append word rest
  rcases List.prefix_or_prefix_of_prefix hfront (List.prefix_append word' rest') with hle | hle
  · exact hS.eq hword hword' hle
  · exact (hS.eq hword' hword hle).symm

theorem uniquelyDecodable_of_isAntichain (hnil : [] ∉ S) (hS : IsAntichain (· <+: ·) S) : UniquelyDecodable S := by
  intro words words' hwords hwords' h
  -- Both lists begin with one word, so the rest of both is equal again.
  induction words generalizing words' with
  | nil =>
    cases words' with
    | nil => rfl
    | cons word' words' =>
      obtain ⟨rfl, -⟩ := List.append_eq_nil_iff.mp h.symm
      exact absurd (hwords' [] List.mem_cons_self) hnil
  | cons word words ih =>
    obtain ⟨hword, hwords⟩ := List.forall_mem_cons.mp hwords
    cases words' with
    | nil =>
      obtain ⟨rfl, -⟩ := List.append_eq_nil_iff.mp h
      exact absurd hword hnil
    | cons word' words' =>
      obtain ⟨hword', hrest'⟩ := List.forall_mem_cons.mp hwords'
      rw [List.flatten_cons, List.flatten_cons] at h
      obtain rfl := word_eq_of_append_eq hS hword hword' h
      rw [ih words' hwords hrest' (List.append_cancel_left h)]

end Codes

/-- The words that the names are. -/
def wordsOf (names : List String) : Set (List Char) := {word | word ∈ names.map String.toList}

section Names

variable {names methods methods' : List String}

theorem words_of_names (h : ∀ method ∈ methods, method ∈ names) :
    ∀ word ∈ methods.map String.toList, word ∈ wordsOf names := by
  intro word hword
  obtain ⟨method, hmethod, rfl⟩ := List.mem_map.mp hword
  exact List.mem_map_of_mem (h method hmethod)

/-- Names that can be parted again are told by their text. -/
theorem join_inj (hcode : UniquelyDecodable (wordsOf names)) (hmethods : ∀ method ∈ methods, method ∈ names)
    (hmethods' : ∀ method ∈ methods', method ∈ names) :
    String.join methods = String.join methods' ↔ methods = methods' := by
  refine ⟨fun h => ?_, congrArg String.join⟩
  rw [← String.toList_inj, String.toList_join, String.toList_join, List.flatMap_def, List.flatMap_def] at h
  have hparted := hcode _ _ (words_of_names hmethods) (words_of_names hmethods') h
  exact List.map_injective_iff.mpr (fun _ _ => String.toList_inj.mp) hparted

theorem notMem_join {c : Char} (hnames : ∀ name ∈ names, c ∉ name.toList)
    (hmethods : ∀ method ∈ methods, method ∈ names) : c ∉ (String.join methods).toList := by
  intro hmem
  rw [String.toList_join] at hmem
  obtain ⟨method, hmethod, hc⟩ := List.mem_flatMap.mp hmem
  exact hnames method (hmethods method hmethod) hc

end Names

/-- The last colon of a text parts what stands in front of it from what does not hold one. -/
theorem append_colon_inj {uri uri' tail tail' : String} (htail : ':' ∉ tail.toList) (htail' : ':' ∉ tail'.toList) :
    uri ++ ":" ++ tail = uri' ++ ":" ++ tail' ↔ uri = uri' ∧ tail = tail' := by
  have hchars : ∀ u t : String, (u ++ ":" ++ t).toList = u.toList ++ ':' :: t.toList := by simp
  constructor
  · intro h
    have hcut := congrArg (fun s => Source.splitAtLast? ':' s.toList) h
    simp only [hchars, splitAtLast?_append _ htail, splitAtLast?_append _ htail'] at hcut
    obtain ⟨huri, htails⟩ := Prod.mk.inj (Option.some.inj hcut)
    exact ⟨String.toList_inj.mp huri, String.toList_inj.mp htails⟩
  · rintro ⟨rfl, rfl⟩
    rfl

/-! ## Routes -/

/-- The methods that routes are documented with. -/
def requestMethods : List String := ["GET", "POST", "PUT", "PATCH", "DELETE", "OPTIONS", "TRACE", "CONNECT"]

theorem requestMethods_uncut : ∀ name ∈ requestMethods, ':' ∉ name.toList := by decide +kernel

theorem requestMethods_uniquelyDecodable : UniquelyDecodable (wordsOf requestMethods) := by
  have hnil : [] ∉ requestMethods.map String.toList := by decide +kernel
  have happart : ∀ word ∈ requestMethods.map String.toList, ∀ word' ∈ requestMethods.map String.toList,
      word ≠ word' → ¬ word <+: word' := by decide +kernel
  exact uniquelyDecodable_of_isAntichain hnil fun word hword word' hword' => happart word hword word' hword'

/-- Routes have one key just if their URIs and their methods are the same, and one id just if they are the same in
these or their keys collide. -/
theorem routeKey_eq_iff {uri uri' : String} {methods methods' : List String}
    (hmethods : ∀ method ∈ methods, method ∈ requestMethods)
    (hmethods' : ∀ method ∈ methods', method ∈ requestMethods) :
    (routeKey uri methods = routeKey uri' methods' ↔ uri = uri' ∧ methods = methods') ∧
      (routeId uri methods = routeId uri' methods' ↔
        (uri = uri' ∧ methods = methods') ∨ Md5.Collide (routeKey uri methods) (routeKey uri' methods')) := by
  have hkey : routeKey uri methods = routeKey uri' methods' ↔ uri = uri' ∧ methods = methods' := by
    have hcut := notMem_join requestMethods_uncut hmethods
    have hcut' := notMem_join requestMethods_uncut hmethods'
    rw [routeKey, routeKey, utf8_inj, append_colon_inj hcut hcut',
      join_inj requestMethods_uniquelyDecodable hmethods hmethods']
  refine ⟨hkey, ?_⟩
  rw [routeId, routeId, Md5.hex_inj, ← hkey, Md5.Collide]
  constructor
  · intro hdigest
    exact or_iff_not_imp_left.mpr fun hne => ⟨hne, hdigest⟩
  · rintro (heq | ⟨-, hdigest⟩)
    · rw [heq]
    · exact hdigest

/-- The URI holds a colon and the name of a method. -/
theorem routeKey_orders_ne : (∀ method ∈ ["POST"], method ∈ requestMethods) ∧
    (∀ method ∈ ["GET", "POST"], method ∈ requestMethods) ∧
    routeKey "/orders:GET" ["POST"] ≠ routeKey "/orders" ["GET", "POST"] := by
  have hone : ∀ method ∈ ["POST"], method ∈ requestMethods := by decide
  have htwo : ∀ method ∈ ["GET", "POST"], method ∈ requestMethods := by decide
  refine ⟨hone, htwo, fun h => ?_⟩
  have hsame := (routeKey_eq_iff hone htwo).1.mp h
  exact absurd hsame.2 (by decide)

-- A name that is put together from others is not told from them.
example : routeKey "/orders" ["GETPOST"] = routeKey "/orders" ["GET", "POST"] := by rfl

end ApiManual
