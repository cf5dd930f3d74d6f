import Managed.OptionalFields.Tag
import Managed.Text.Hex
import Managed.Text.Quoted

namespace Managed

inductive Defect where
  | compressedLead (byte : Nat)
  | sevenBitCapacity
  | sevenBitNotMinimal
  | sevenBitTooLong
  | unknownFieldTag (index : Nat)
  | fieldOutOfOrder (tag : FieldTag)
  | trailingFieldData (length : Nat)
  | fieldsNotTerminated
  | noOptionalHeader
  | noCliDirectory
  | rvaTooLarge (rva : Nat)
  | sectionOverflow (address size : Nat)
  | rvaNotMapped (rva : Nat)
  | cliDirectoryTooSmall (size : Nat)
  | cliHeaderSize (size : Nat)
  | runtimeVersion (major : Nat)
  | metadataRvaZero
  | metadataSizeZero
  | cliFlags (flags : Nat)
  | resources
  | strongName
  | codeManagerTable
  | vtableFixups
  | rootSignature (signature : Nat)
  | versionTooLong (length : Nat)
  | noStreams
  | streamNameNotTerminated
  | streamName (name : String)
  | streamRange (name : String) (offset size : Nat)
  | duplicateStream (name : String)
  | noTableStream
  | noStringsHeap
  | noRows
  | emptyBlobHeap
  | emptyStringsHeap
  | heapString (index : Nat)
  | versionFormat (text : String)
  | versionComponent (text : String)
  | publicKeyToken (text : String) (error : Text.Hex.DecodeError)
  | emptyAssemblyName
deriving DecidableEq, Repr

def hexDecodeMessage : Text.Hex.DecodeError → String
  | .oddLength => "Odd number of digits"
  | .invalidDigit byte index =>
    s!"Invalid character {Text.Quoted.char (Char.ofNat byte.toNat)} at position {index}"

namespace Defect

def message : Defect → String
  | compressedLead byte => s!"Invalid compressed uint - {byte}"
  | sevenBitCapacity => "7-bit encoded integer overflow: value exceeds u32 capacity"
  | sevenBitNotMinimal => "7-bit encoded integer is not minimally encoded"
  | sevenBitTooLong => "7-bit encoded integer overflow: more than 5 bytes"
  | unknownFieldTag index => s!"Unknown optional field tag - {index}"
  | fieldOutOfOrder tag => s!"Optional field tags out of order - {tag.name}"
  | trailingFieldData length => s!"Trailing data after last optional field - {length} bytes"
  | fieldsNotTerminated => "Optional fields are not terminated"
  | noOptionalHeader => "File does not have an OptionalHeader"
  | noCliDirectory => "File does not have a CLR runtime header directory"
  | rvaTooLarge rva => s!"RVA too large to fit in u32: {rva}"
  | sectionOverflow address size =>
    s!"Section malformed, causing integer overflow - {address} + {size}"
  | rvaNotMapped rva => s!"RVA could not be converted to offset - {rva}"
  | cliDirectoryTooSmall size => s!"CLR header directory too small - {size}"
  | cliHeaderSize size => s!"Invalid CLR header size: expected 72, got {size}"
  | runtimeVersion major => s!"Invalid major runtime version: {major}"
  | metadataRvaZero => "Metadata RVA cannot be zero"
  | metadataSizeZero => "Metadata size cannot be zero"
  | cliFlags flags =>
    let digits := (String.ofList (Text.Hex.padded 8 flags)).toUpper
    s!"Invalid CLR flags: 0x{digits} contains undefined bits"
  | resources => "Resource values are invalid"
  | strongName => "Strong name values are invalid"
  | codeManagerTable => "Code Manager Table fields must be zero (reserved)"
  | vtableFixups => "VTable fixups are invalid"
  | rootSignature signature => s!"CIL_HEADER_MAGIC does not match - {signature}"
  | versionTooLong length => s!"Version string length exceeds 255 - {length}"
  | noStreams => "No valid streams have been found"
  | streamNameNotTerminated => "Stream header name is not terminated"
  | streamName name => s!"Invalid stream header name - {name}"
  | streamRange name offset size => s!"Stream {name} exceeds the metadata - {offset} + {size}"
  | duplicateStream name => s!"Duplicate stream - {name}"
  | noTableStream => "No table stream found"
  | noStringsHeap => "No #Strings heap found"
  | noRows => "No valid rows in any of the tables"
  | emptyBlobHeap => "Invalid memory for #Blob heap"
  | emptyStringsHeap => "Provided #String heap is empty"
  | heapString index => s!"Invalid string at index - {index}"
  | versionFormat text => s!"Invalid version format: {text}"
  | versionComponent text => s!"Invalid version component: {text}"
  | publicKeyToken text error =>
    s!"Invalid hex in PublicKeyToken '{text}': {hexDecodeMessage error}"
  | emptyAssemblyName => "Assembly name cannot be empty"

end Defect

end Managed
