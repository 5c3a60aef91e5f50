import CenterOfMass.Exchange.RawData
import CenterOfMass.Files.Basic
import CenterOfMass.Json.Printer
import CenterOfMass.Numeric.Double
import CenterOfMass.Png.Encoder

namespace CenterOfMass

/-- What is said of a result in the summary. -/
structure SummaryEntry where
  key : String
  title : String
  description : String
  image : String
  /-- The file with the values, if they are handed out. -/
  data : Option String
  deriving DecidableEq

/-- What has been written, and with which parameters it was computed. -/
structure Summary (R : Type) where
  parameters : Parameters R
  results : List SummaryEntry

/-- Why results cannot be written. -/
inductive ExportFault
  | directory (path : String) (cause : FileFault)
  | encode (key : String) (cause : Failure)
  | write (name : String) (cause : FileFault)

namespace ExportFault

def message : ExportFault → String
  | .directory path _ => "Failed to create output directory " ++ path
  | .encode key _ => "Failed to encode " ++ key
  | .write name _ => "Failed to write " ++ name

def cause : ExportFault → String
  | .directory _ cause => cause.message
  | .encode _ cause => cause.message
  | .write _ cause => cause.message

end ExportFault

def imageName (key : String) : String := key ++ ".png"

def dataName (key : String) : String := key ++ ".json"

def summaryName : String := "summary.json"

section Summary

variable {R : Type}

def SummaryEntry.ofEntry (e : Entry R) : SummaryEntry :=
  ⟨e.key, e.title, e.description, imageName e.key,
    if e.inDownload then some (dataName e.key) else none⟩

def SummaryEntry.toJson (e : SummaryEntry) : Json R :=
  .object [("key", .text e.key), ("title", .text e.title), ("description", .text e.description),
    ("image", .text e.image), ("data", .ofOption .text e.data)]

def Summary.toJson [Extended R] (s : Summary R) : Json R :=
  .object [("parameters", s.parameters.toJson),
    ("results", .array (s.results.map SummaryEntry.toJson))]

end Summary

def utf8Bytes (s : String) : List UInt8 := s.toUTF8.toList

namespace Export

variable {m : Type → Type} [Monad m]

/-- Writes a file into a directory. -/
def file (fs : FileSystem m) (directory name : String) (bytes : List UInt8) :
    ExceptT ExportFault m Unit := do
  match ← fs.write (joinPath directory name) bytes with
  | .ok () => return ()
  | .error cause => throw (.write name cause)

/-- Writes the image of a result, and its values if they are handed out. -/
def entry (fs : FileSystem m) (encoder : Png.Encoder) (directory : String) (e : Entry Float) :
    ExceptT ExportFault m SummaryEntry := do
  match encoder.write e.key e.image with
  | .ok bytes => file fs directory (imageName e.key) bytes
  | .error cause => throw (.encode e.key cause)
  if e.inDownload then
    file fs directory (dataName e.key) (utf8Bytes e.raw.toJson.compact)
  return .ofEntry e

/-- Writes all results in order, and then the summary of them. -/
def results (fs : FileSystem m) (results : ResultSet Float) (parameters : Parameters Float)
    (directory : String) (encoder : Png.Encoder := .storing) :
    ExceptT ExportFault m (Summary Float) := do
  match ← fs.makeDirectories directory with
  | .ok () => pure ()
  | .error cause => throw (.directory directory cause)
  let entries ← results.entries.mapM (entry fs encoder directory)
  let summary : Summary Float := ⟨parameters, entries⟩
  file fs directory summaryName (utf8Bytes summary.toJson.pretty)
  return summary

end Export

end CenterOfMass
