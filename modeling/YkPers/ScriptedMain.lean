import YkPers.Checksum
import YkPers.ScriptedHost
import YkPers.ScriptedJson
import YkPers.ScriptedKey
import YkPers.Ykpersonalize

/-!
# A console, files and a key for the program

The key is found on the bus and gives its replies; files are looked up in a list.
-/

namespace YkPers

namespace ScriptedMain

def usb : Usb ScriptedKey where
  toHost := ScriptedKey.host .little crc16
  ykusbStart k := (.ok ⟨⟩, k)
  ykusbStop k := (.ok ⟨⟩, k)
  ykusbOpenDevice _ _ k := (.ok ⟨⟩, k)
  ykusbCloseDevice k := (.ok ⟨⟩, k)

def env (docs : List Json) (files : List (String × List Char)) : MainEnv where
  args := ScriptedHost.env 0 0 0
  encoders := ScriptedJson.libyubikey
  jsonC := ScriptedJson.jsonC docs
  ykpersVersionString := "1.19.4"
  readFile name :=
    match files.lookup (String.ofList name) with
    | some contents => .ok contents
    | none => .error "No such file or directory"
  writeFile _ := .ok fun text => text ≠ []

/-- A key of version 4.3.2 that gives its status twice when it is opened, and `replies` after
that. -/
def start (args : List String) (stdin : String) (replies : List Report) : MainState ScriptedKey :=
  .start (args.map String.toList) stdin.toList (List.replicate 46 0) (List.replicate 128 0)
    (List.replicate 256 0) (List.replicate 1024 CString.nul)
    ⟨[], ScriptedKey.keyReport 1 0 :: ScriptedKey.keyReport 1 0 :: replies⟩

/-- The replies to a command that is accepted, with `polls` that find the key ready. -/
def accepting (polls : ℕ) : List Report :=
  ScriptedKey.keyReport 1 0 :: List.replicate polls (ScriptedKey.statusReport 0) ++
    [ScriptedKey.keyReport 2 0]

/-- A report of a NEO, which has NDEF records. -/
def neoReport (pgmSeq : UInt8) : Report := Report.ofBytes [0, 3, 4, 0, pgmSeq, 0, 0, 0]

/-- A NEO that accepts a command, with `polls` that find it ready. -/
def startNeo (args : List String) (polls : ℕ) : MainState ScriptedKey :=
  .start (args.map String.toList) [] (List.replicate 46 0) (List.replicate 128 0)
    (List.replicate 256 0) (List.replicate 1024 CString.nul)
    ⟨[], List.replicate 3 (neoReport 1) ++ List.replicate polls (ScriptedKey.statusReport 0) ++
      [neoReport 2]⟩

end ScriptedMain

end YkPers
