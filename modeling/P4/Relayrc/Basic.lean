/-
  The configuration that `_start_onionrelay` writes for the relay.

  `onionrelayrc` is the text.  `writeText` is `Path.write_text`, which turns newlines into the
  line ends of the platform, and `readFileToStr` is how the relay loads the file before it parses
  it: without the CRs.  The data directory is a resolved path: absolute, and otherwise any string
  without NUL, with a surrogate for each byte of a file name that is not UTF-8.
-/
import P4.Json.Print
import P4.Node.Line
import P4.Relayrc.Confline

namespace P4

/-! ### Platforms -/

/-- `os.name` -/
inductive OsName where
  | posix
  | nt
deriving DecidableEq

namespace OsName

/-- `os.linesep` -/
def linesep : OsName → Text
  | posix => ['\n']
  | nt => ['\r', '\n']

/-- An absolute path: from the root, or from a drive or a share. -/
def isAbsolute : OsName → Str → Bool
  | posix, path => path.head? = some (Str.ofChar '/')
  | nt, path =>
    (Str.ofText ['\\', '\\']).isPrefixOf path ||
      path.head?.any (fun c => (Char.ofNat c.val).isAlpha) &&
        (Str.ofText [':', '\\']).isPrefixOf path.tail

/-- `os.sep` -/
def sep : OsName → Char
  | posix => '/'
  | nt => '\\'

/-- `dir / name`, for a resolved path and one name. -/
def join (os : OsName) (dir name : Str) : Str :=
  (if dir.getLast? = some (Str.ofChar os.sep) then dir else dir ++ [Str.ofChar os.sep]) ++ name

/-- `P4Node._onionrelay_data`; the path is resolved when it goes through no symbolic link. -/
def onionrelayData (os : OsName) (stateDir : Str) : Str :=
  os.join (os.join stateDir (Str.lit "onionrelay")) (Str.lit "data")

end OsName

/-! ### The writer -/

/-- The newlines of a text file are written as line ends of the platform. -/
def OsName.translate (os : OsName) (t : Text) : Text :=
  t.flatMap fun c => if c = '\n' then os.linesep else [c]

/-- `path.write_text(text, encoding="utf-8")`: the bytes of the file. -/
def writeText (os : OsName) (text : Str) : Except Exc (List UInt8) := do
  let t ← encodeUtf8 text
  return encodeText (os.translate t)

/-- `relayrc` in `_start_onionrelay`, with `self._onionrelay_data().resolve()`. -/
def relayrcLines (socksPort controlPort : Int) (dataDir : Str) : List Str :=
  [Str.lit "SocksPort " ++ Str.ofText (Json.printInt socksPort),
    Str.lit "ControlPort " ++ Str.ofText (Json.printInt controlPort),
    Str.lit "DataDirectory " ++ dataDir,
    Str.lit "CookieAuthentication 0",
    Str.lit "ClientOnly 1",
    Str.lit "AvoidDiskWrites 1",
    Str.lit "Log notice stdout"]

/-- The text of the file. -/
def onionrelayrc (socksPort controlPort : Int) (dataDir : Str) : Str :=
  (Str.lit "\n").intercalate (relayrcLines socksPort controlPort dataDir) ++ Str.lit "\n"

/-! ### The loader -/

/-- What is read from a file with `O_TEXT`: on Windows it ends at Ctrl-Z. -/
def OsName.readTextMode (os : OsName) (bytes : List UInt8) : List UInt8 :=
  match os with
  | posix => bytes
  | nt => bytes.takeWhile (· ≠ 26)

/-- `read_file_to_str` without `RFTS_BIN`, which strips every CR on all platforms. -/
def OsName.readFileToStr (os : OsName) (bytes : List UInt8) : List UInt8 :=
  (os.readTextMode bytes).filter (· ≠ 13)

/-! ### What was meant -/

/-- The seven options. -/
def relayrcOptions (socksPort controlPort : Int) (dataDir : Text) : List (Text × Text) :=
  [("SocksPort".toList, Json.printInt socksPort),
    ("ControlPort".toList, Json.printInt controlPort),
    ("DataDirectory".toList, dataDir),
    ("CookieAuthentication".toList, "0".toList),
    ("ClientOnly".toList, "1".toList),
    ("AvoidDiskWrites".toList, "1".toList),
    ("Log".toList, "notice stdout".toList)]

/-- The bytes of an option. -/
def encodeOption (option : Text × Text) : List UInt8 × List UInt8 :=
  (encodeText option.1, encodeText option.2)

/-- The line parser of the relay reads the options that were meant from the text. -/
def RelayrcReadsBack (socksPort controlPort : Int) (dataDir : Str) : Prop :=
  ∃ text t, encodeUtf8 (onionrelayrc socksPort controlPort dataDir) = .ok text ∧
    dataDir = Str.ofText t ∧
    readConfig (encodeText text) = .ok ((relayrcOptions socksPort controlPort t).map encodeOption)

/-- The relay reads the options that were meant from the file on the disk. -/
def RelayrcLoads (os : OsName) (socksPort controlPort : Int) (dataDir : Str) : Prop :=
  ∃ bytes t, writeText os (onionrelayrc socksPort controlPort dataDir) = .ok bytes ∧
    dataDir = Str.ofText t ∧
    readConfig (os.readFileToStr bytes) =
      .ok ((relayrcOptions socksPort controlPort t).map encodeOption)

end P4
