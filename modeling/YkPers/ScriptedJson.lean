import Mathlib.Data.List.Pairwise
import YkPers.Lib.Hex
import YkPers.YkpersJson

/-!
# A json-c for given documents

It prints as json-c does with `JSON_C_TO_STRING_PRETTY`, and parses the texts of some documents. The
parser is not strict: an object ends at its last brace, whatever stands behind it. The encoders are
those of libyubikey.
-/

open scoped List

namespace YkPers

namespace ScriptedJson

def indent (level : ℕ) : List Char := List.replicate (2 * level) ' '

def quoted (s : String) : List Char := '"' :: s.toList ++ ['"']

mutual

def print (level : ℕ) : Json → List Char
  | .null => "null".toList
  | .boolean b => if b then "true".toList else "false".toList
  | .int n => (toString n).toList
  | .double text => text.toList
  | .string s => quoted s
  | .array [] => '[' :: '\n' :: indent level ++ [']']
  | .array xs => '[' :: '\n' :: printElements (level + 1) xs ++ '\n' :: indent level ++ [']']
  | .object [] => '{' :: '\n' :: indent level ++ ['}']
  | .object ms => '{' :: '\n' :: printMembers (level + 1) ms ++ '\n' :: indent level ++ ['}']

def printElements (level : ℕ) : List Json → List Char
  | [] => []
  | [x] => indent level ++ print level x
  | x :: xs => indent level ++ print level x ++ ',' :: '\n' :: printElements level xs

def printMembers (level : ℕ) : List (String × Json) → List Char
  | [] => []
  | [m] => printMember level m
  | m :: ms => printMember level m ++ ',' :: '\n' :: printMembers level ms

def printMember (level : ℕ) : String × Json → List Char
  | (key, v) => indent level ++ quoted key ++ ':' :: print level v

end

/-- A NUL is escaped. -/
def text (j : Json) : List Char :=
  (print 0 j).flatMap fun c => if c = CString.nul then "\\u0000".toList else [c]

theorem nul_notMem_text (j : Json) : '\x00' ∉ text j := by
  rw [text, List.mem_flatMap]
  rintro ⟨c, -, hc⟩
  split_ifs at hc with h
  · exact absurd hc (by decide)
  · exact h (List.mem_singleton.1 hc).symm

def getInt : Json → Int32
  | .int n =>
    if n < -2 ^ 31 then Int32.minValue else if 2 ^ 31 ≤ n then Int32.maxValue else .ofInt n
  | .boolean b => if b then 1 else 0
  | _ => 0

def getBoolean : Json → Bool
  | .boolean b => b
  | .int n => n ≠ 0
  | .string s => s ≠ ""
  | _ => false

def getString : Json → Option String
  | .null => none
  | .string s => some s
  | j => some (String.ofList (text j))

/-- An object is read up to its last brace; any other document is all of the text. -/
def parses (t : List Char) (d : Json) : Bool :=
  match d with
  | .object _ => (text d).isPrefixOf t
  | _ => text d = t

def jsonC (docs : List Json) : JsonC where
  tokenerParse t := (docs.find? (parses t)).getD .null
  toJsonString := text
  getInt := getInt
  getBoolean := getBoolean
  getString := getString
  toJsonString_nul := nul_notMem_text
  getInt_int n := by
    have hmin := n.minValue_le_toInt
    have hmax := n.toInt_lt
    rw [Int32.toInt_minValue] at hmin
    rw [getInt, if_neg (by omega), if_neg (by omega), Int32.ofInt_toInt]
  getBoolean_boolean _ := rfl
  getString_string _ := rfl

/-! ## What it parses -/

theorem parses_text (d : Json) : parses (text d) d = true := by
  cases d <;> simp [parses]

theorem text_prefix_of_parses {t : List Char} {d : Json} (h : parses t d = true) :
    text d <+: t := by
  cases d with
  | object ms => exact List.isPrefixOf_iff_prefix.1 h
  | _ => exact of_decide_eq_true h ▸ List.prefix_rfl

/-- No document's text begins with another's. -/
def Apart (docs : List Json) : Prop :=
  (docs.map text).Pairwise fun t t' => ¬ t <+: t' ∧ ¬ t' <+: t

instance (docs : List Json) : Decidable (Apart docs) :=
  inferInstanceAs (Decidable (List.Pairwise _ (docs.map text)))

theorem apart_singleton (d : Json) : Apart [d] := List.pairwise_singleton _ _

theorem Apart.eq {docs : List Json} (h : Apart docs) {d d' : Json} (hd : d ∈ docs)
    (hd' : d' ∈ docs) (hpre : text d <+: text d') : d = d' := by
  by_contra hne
  have hsymm : Std.Symm fun d d' : Json => ¬ text d <+: text d' ∧ ¬ text d' <+: text d :=
    ⟨fun _ _ h => h.symm⟩
  exact ((List.pairwise_map.1 h).forall hd hd' hne).1 hpre

theorem find_parses {docs : List Json} (h : Apart docs) {t : List Char} {d : Json} (hd : d ∈ docs)
    (hparses : parses t d = true) : docs.find? (parses t) = some d := by
  obtain ⟨d', hfind⟩ := Option.isSome_iff_exists.1 (List.find?_isSome.2 ⟨d, hd, hparses⟩)
  have hmem' := List.mem_of_find?_eq_some hfind
  -- two texts in front of one text: one of them begins with the other
  have heq : d = d' := by
    rcases List.prefix_or_prefix_of_prefix (text_prefix_of_parses hparses)
      (text_prefix_of_parses (List.find?_some hfind)) with hpre | hpre
    · exact h.eq hd hmem' hpre
    · exact (h.eq hmem' hd hpre).symm
  rw [hfind, heq]

theorem tokenerParse_text {docs : List Json} (h : Apart docs) {d : Json} (hd : d ∈ docs) :
    (jsonC docs).tokenerParse (text d) = d := by
  show (docs.find? (parses (text d))).getD .null = d
  rw [find_parses h hd (parses_text d)]
  rfl

/-- The memory of a document's text. -/
def memory (j : Json) : List Char := text j ++ [CString.nul]

theorem read_memory (j : Json) : CString.read (memory j) = some (text j) :=
  CString.read_append (nul_notMem_text j) []

def libyubikey : Encoders := ⟨Hex.Alphabet.hex.encode, Hex.Alphabet.modhex.encode⟩

end ScriptedJson

end YkPers
