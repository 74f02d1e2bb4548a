import MethodFlow.Descriptor.Reader

namespace MethodFlow

/-- What is wrong with a line. Text of the line is kept as it was written. -/
inductive ListingFault where
  | strayInstruction
  | unfinishedMethod (name : UnqualifiedName)
  | outsideMethod (directive : String)
  | unknownDirective (directive : List Char)
  | argumentCount (directive : List Char) (expected found : Nat)
  | missingClassName (directive : List Char)
  | missingSignature
  | unknownModifier (modifier : List Char)
  | unknownLimit (limit : List Char)
  | unknownEnd (what : List Char)
  | catchForm
  | unknownInstruction (mnemonic : List Char)
  | noArguments (mnemonic : List Char)
  | oneArgument (mnemonic : List Char)
  | incrementForm
  | fieldForm
  | malformedInvoke (mnemonic : List Char)
  | multiArrayForm
  | retForm
  | singleLabel (mnemonic : List Char)
  | switchDefault
  | switchLow
  | switchPair (pair : List Char)
  | duplicateKey
  | invalidLabel (name : List Char)
  | invalidNumber (token : List Char)
  | invalidConstant (operand : List Char)
  | unterminatedString (operand : List Char)
  | unknownEscape (c : Char)
  | danglingEscape
  | unknownPrimitive (token : List Char)
  | missingDescriptor (token : List Char)
  | missingOwner (token : List Char)
  | badName (cause : NameError)
  | badMethodDescriptor (token : List Char) (cause : DescriptorError)
  | badFieldType (token : List Char) (cause : DescriptorError)
  | badArrayType (token : List Char) (cause : DescriptorError)
deriving DecidableEq

namespace ListingFault

private def tick (text : List Char) : String := "`" ++ String.ofList text ++ "`"

private def quote (text : List Char) : String := "'" ++ String.ofList text ++ "'"

def message : ListingFault → String
  | strayInstruction => "Instruction outside of a method"
  | unfinishedMethod name => "Method " ++ quote name.chars ++ " is missing `.end method`"
  | outsideMethod directive => tick directive.toList ++ " outside of a method"
  | unknownDirective directive => "Unknown directive " ++ quote directive
  | argumentCount directive expected found =>
    tick directive ++ s!" expects {expected} argument(s), but got {found}"
  | missingClassName directive => "Missing class name for " ++ tick directive
  | missingSignature => "Missing method name and descriptor"
  | unknownModifier modifier => "Unknown method modifier " ++ quote modifier
  | unknownLimit limit => "Unknown limit " ++ quote limit
  | unknownEnd what => "Unknown " ++ tick (".end ".toList ++ what)
  | catchForm => "Expected `.catch TYPE from START to END using HANDLER`"
  | unknownInstruction mnemonic => "Unknown instruction " ++ quote mnemonic
  | noArguments mnemonic => tick mnemonic ++ " takes no arguments"
  | oneArgument mnemonic => tick mnemonic ++ " takes exactly one argument"
  | incrementForm => "`iinc` expects a local and an increment"
  | fieldForm => "Expected `owner/name DESCRIPTOR`"
  | malformedInvoke mnemonic => "Malformed " ++ tick mnemonic
  | multiArrayForm => "`multianewarray` expects a type and dimensions"
  | retForm => "`ret` expects a local"
  | singleLabel mnemonic => tick mnemonic ++ " expects a single label"
  | switchDefault => "Switch is missing `default LABEL`"
  | switchLow => "`tableswitch` is missing its low value"
  | switchPair pair => "Expected `key:label`, but found " ++ quote pair
  | duplicateKey => "Duplicate key in `lookupswitch`"
  | invalidLabel name => "Invalid label name " ++ quote name
  | invalidNumber token => "Invalid number " ++ quote token
  | invalidConstant operand => "Invalid constant " ++ quote operand
  | unterminatedString operand => "Unterminated string literal " ++ String.ofList operand
  | unknownEscape c => "Unknown escape " ++ quote ['\\', c]
  | danglingEscape => "Dangling escape at end of string"
  | unknownPrimitive token => "Unknown primitive type " ++ quote token
  | missingDescriptor token => "Expected a method descriptor in " ++ quote token
  | missingOwner token => "Expected `owner/name`, but found " ++ quote token
  | badName cause => cause.message
  | badMethodDescriptor token cause =>
    "Invalid method descriptor " ++ quote token ++ ": " ++ cause.message
  | badFieldType token cause => "Invalid field type " ++ quote token ++ ": " ++ cause.message
  | badArrayType token cause => "Invalid array type " ++ quote token ++ ": " ++ cause.message

end ListingFault

/-- A line that cannot be read, by its number from one on. -/
structure ListingError where
  line : Nat
  fault : ListingFault
deriving DecidableEq

def ListingError.message (error : ListingError) : String :=
  s!"line {error.line}: {error.fault.message}"

end MethodFlow
