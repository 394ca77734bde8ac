import Chunkwise.Filter.Candidate
import Chunkwise.Pattern.Basic

namespace Chunkwise

namespace Marks

open Pattern

def anyOccurs (ps : List Pattern) (t : Text) : Bool :=
  ps.any (·.occursIn t)

def testExtensions : Pattern :=
  literals ["ts", "js", "tsx", "jsx", "py", "go", "rs", "java", "cs"]

def testPaths : List Pattern := [
  chain [literal ".test.", testExtensions, finish],
  chain [literal ".spec.", testExtensions, finish],
  chain [literal "_test.", testExtensions, finish],
  chain [literal "/test", opt (char 's'), char '/'],
  literal "/__tests__/",
  literal "/spec/",
  literal "/test_"]

def call (names : List String) : Pattern :=
  chain [wordEdge, literals names, anyBlanks, char '(']

def testContents : List Pattern := [
  call ["describe", "it", "test", "expect", "assert", "should"],
  call ["beforeEach", "afterEach", "beforeAll", "afterAll"],
  chain [wordEdge, literal "Mock", wordEdge],
  chain [wordEdge, literal "Stub", wordEdge],
  literal "jest.fn(",
  literal "sinon.",
  chain [wordEdge, literalAnyCase "fixture", wordEdge],
  chain [wordEdge, literal "self.assert", star isWordChar, char '('],
  chain [wordEdge, literal "pytest."],
  chain [wordEdge, literal "mock.patch", wordEdge],
  call ["setUp", "tearDown"]]

def testContentsNeeded : Nat := 3

def generatedExtensions : Pattern :=
  literals ["ts", "js", "go", "rs", "cs"]

def generatedPaths : List Pattern := [
  literal ".generated.",
  chain [literal ".g.", generatedExtensions, finish],
  chain [literal "-gen.", generatedExtensions, finish],
  literal "/generated/",
  literal "/dist/",
  literal "/build/",
  literal "/out/",
  literal "node_modules/",
  chain [literal ".min.", literals ["js", "css"], finish]]

def generatedContents : List Pattern := [
  literalAnyCase "@generated",
  literalAnyCase "DO NOT EDIT",
  literalAnyCase "AUTO-GENERATED",
  literalAnyCase "Code generated by",
  literalAnyCase "GENERATED CODE",
  literalAnyCase "This file was automatically generated",
  chain [char '*', anyBlanks, literalAnyCase "AUTO GENERATED"]]

def deprecatedContents : List Pattern := [
  literalAnyCase "@deprecated",
  literalAnyCase "[deprecated]",
  chain [wordEdge, literal "DEPRECATED", wordEdge],
  chain [literal "//", anything, literalAnyCase "deprecated"],
  chain [literal "/*", anything, literalAnyCase "deprecated", anything, literal "*/"],
  chain [literalAnyCase "warnings.warn", anything, literalAnyCase "deprecat"],
  literal "#[deprecated"]

def isTest (c : Candidate) : Bool :=
  anyOccurs testPaths c.rootedPath.toLower ||
    testContentsNeeded ≤ testContents.countP (·.occursIn c.text)

def isGenerated (c : Candidate) : Bool :=
  anyOccurs generatedPaths c.rootedPath || anyOccurs generatedContents c.text

def isDeprecated (c : Candidate) : Bool :=
  anyOccurs deprecatedContents c.text

end Marks

end Chunkwise
