import Mathlib.Data.List.Basic
import Mathlib.Algebra.Group.Int.Defs

/-!
# JSON documents

Values as json-c hands them out, with `null` for its null pointer. `get` reports a key as absent
where it is asked of a value that is not an object, and `add` replaces a member that is there. The
conversions that depend on the library's own text formats are the functions of a `JsonC`.
-/

inductive Json where
  | null
  | boolean (b : Bool)
  | int (n : ℤ)
  | double (text : String)
  | string (s : String)
  | array (elements : List Json)
  | object (members : List (String × Json))

namespace Json

/-- `json_object_object_get_ex`. -/
def get : Json → String → Option Json
  | object ms, key => ms.lookup key
  | _, _ => none

def isNull : Json → Bool
  | null => true
  | _ => false

/-- `json_object_get_type(..) == json_type_boolean`. -/
def isBoolean : Json → Bool
  | boolean _ => true
  | _ => false

def addMember (key : String) (v : Json) : List (String × Json) → List (String × Json)
  | [] => [(key, v)]
  | m :: ms => if key = m.1 then (key, v) :: ms else m :: addMember key v ms

/-- `json_object_object_add`. -/
def add : Json → String → Json → Json
  | object ms, key, v => object (addMember key v ms)
  | j, _, _ => j

/-- One member after the other. -/
def adds (j : Json) (ms : List (String × Json)) : Json := ms.foldl (fun j m => j.add m.1 m.2) j

theorem lookup_addMember_self (key : String) (v : Json) :
    ∀ ms : List (String × Json), (addMember key v ms).lookup key = some v
  | [] => by simp [addMember]
  | m :: ms => by
    rw [addMember]
    split_ifs with h
    · simp
    · rw [List.lookup_cons, beq_false_of_ne h]
      exact lookup_addMember_self key v ms

theorem lookup_addMember_of_ne {key k : String} (hk : k ≠ key) (v : Json) :
    ∀ ms : List (String × Json), (addMember key v ms).lookup k = ms.lookup k
  | [] => by rw [addMember, List.lookup_cons, beq_false_of_ne hk]
  | m :: ms => by
    rw [addMember]
    split_ifs with h
    · rw [List.lookup_cons, List.lookup_cons, ← h, beq_false_of_ne hk]
    · rw [List.lookup_cons, List.lookup_cons, lookup_addMember_of_ne hk v ms]

@[simp] theorem get_add_self (ms : List (String × Json)) (key : String) (v : Json) :
    ((object ms).add key v).get key = some v := lookup_addMember_self key v ms

theorem get_add_of_ne {key k : String} (hk : k ≠ key) (j v : Json) :
    (j.add key v).get k = j.get k := by
  cases j with
  | object ms => exact lookup_addMember_of_ne hk v ms
  | _ => rfl

theorem get_adds_of_notMem {k : String} : ∀ {ms : List (String × Json)},
    k ∉ ms.map Prod.fst → ∀ j, (adds j ms).get k = j.get k
  | [], _, _ => rfl
  | m :: ms, h, j => by
    rw [List.map_cons, List.mem_cons, not_or] at h
    exact (get_adds_of_notMem h.2 (j.add m.1 m.2)).trans (get_add_of_ne h.1 j m.2)

theorem get_adds_of_mem {k : String} {v : Json} : ∀ {ms : List (String × Json)},
    (ms.map Prod.fst).Nodup → (k, v) ∈ ms →
      ∀ ns : List (String × Json), (adds (object ns) ms).get k = some v
  | m :: ms, hn, h, ns => by
    rw [List.map_cons, List.nodup_cons] at hn
    rcases List.mem_cons.1 h with rfl | h
    · exact (get_adds_of_notMem hn.1 _).trans (get_add_self ns k v)
    · exact get_adds_of_mem hn.2 h (addMember m.1 m.2 ns)

end Json

/-- The functions of json-c, and what their results are on values of the kind they are for. -/
structure JsonC where
  /-- `null` where the text is not a document. -/
  tokenerParse : List Char → Json
  toJsonString : Json → List Char
  getInt : Json → Int32
  getBoolean : Json → Bool
  /-- `none` is the null pointer. -/
  getString : Json → Option String
  toJsonString_nul : ∀ j, '\x00' ∉ toJsonString j
  getInt_int : ∀ n : Int32, getInt (.int n.toInt) = n
  getBoolean_boolean : ∀ b, getBoolean (.boolean b) = b
  getString_string : ∀ s, getString (.string s) = some s
